import Octets.Proofs.Pipeline.Build
import Octets.Proofs.Transform.Frame

/-!
# What a request writes

A caller has a transform, a named transform or a pipeline applied to a value (`Request`). Each of
them writes no buffer of the store but the one it is given, and that only in place; its result is
that buffer or a new one (`Framed`). A fault changes nothing about this.

* `framed_applyFrom` — every later step of a pipeline works on the buffer the pipeline is given or
  on one the pipeline has made; the proof is by induction on the steps.
* `framed_run` — a pipeline from its parameters on: reading, building and applying. All that is
  asked of the transforms is that each keeps to the frame by itself.
* `request_frame` — the frame of every request, over every store.
-/

namespace Octets

/-! ## Kept buffers -/

namespace Store

/-- Every buffer of the earlier store is in the later one. All but the written ones have the bytes
they had. -/
structure Keeps (s s' : Store) (written : Nat → Prop) : Prop where
  length_le : s.buffers.length ≤ s'.buffers.length
  bytes_eq : ∀ ref < s.buffers.length, ¬ written ref → s'.bytes ref = s.bytes ref

/-- The buffer is in the later store and was not in the earlier one. -/
def IsFresh (s s' : Store) (ref : Nat) : Prop :=
  s.buffers.length ≤ ref ∧ ref < s'.buffers.length

variable {s s' s'' : Store} {written : Nat → Prop}

theorem Keeps.refl (s : Store) (written : Nat → Prop) : s.Keeps s written :=
  ⟨Nat.le_refl _, fun _ _ _ => rfl⟩

/-- What is written later counts only as far as the earliest store goes. -/
theorem Keeps.trans {written' : Nat → Prop} (h : s.Keeps s' written)
    (h' : s'.Keeps s'' written') (hle : ∀ ref < s.buffers.length, written' ref → written ref) :
    s.Keeps s'' written where
  length_le := Nat.le_trans h.length_le h'.length_le
  bytes_eq := by
    intro ref hlive hnot
    have hlater : ref < s'.buffers.length := Nat.lt_of_lt_of_le hlive h.length_le
    rw [h'.bytes_eq ref hlater fun hw => hnot (hle ref hlive hw)]
    exact h.bytes_eq ref hlive hnot

theorem Keeps.mono {written' : Nat → Prop} (h : s.Keeps s' written)
    (hle : ∀ ref < s.buffers.length, written ref → written' ref) : s.Keeps s' written' where
  length_le := h.length_le
  bytes_eq := fun ref hlive hnot => h.bytes_eq ref hlive fun hw => hnot (hle ref hlive hw)

theorem Extends.keeps (h : s.Extends s') (written : Nat → Prop) : s.Keeps s' written where
  length_le := Nat.le_of_eq (by rw [h.buffers])
  bytes_eq := fun ref _ _ => by rw [h.bytes]

theorem keeps_add (s : Store) (out : Bytes) (gs : List Random.Generator)
    (written : Nat → Prop) : s.Keeps { (s.add out).2 with generators := gs } written where
  length_le := by simp
  bytes_eq := fun _ hlive _ => s.bytes_add_of_lt out hlive

theorem keeps_overwrite (s : Store) (ref : Nat) (out : Bytes) (gs : List Random.Generator) :
    s.Keeps { s.overwrite ref out with generators := gs } (· = ref) where
  length_le := by simp
  bytes_eq := fun _ _ hne => s.bytes_overwrite_of_ne out hne

theorem keeps_journal (s : Store) (steps : List Applied) (written : Nat → Prop) :
    s.Keeps { s with journal := s.journal ++ steps } written where
  length_le := Nat.le_refl _
  bytes_eq := fun _ _ _ => rfl

theorem IsFresh.of_keeps {ref : Nat} (h : s.Keeps s' written) (hf : s'.IsFresh s'' ref) :
    s.IsFresh s'' ref :=
  ⟨Nat.le_trans h.length_le hf.1, hf.2⟩

theorem IsFresh.keeps {ref : Nat} (hf : s.IsFresh s' ref) (h : s'.Keeps s'' written) :
    s.IsFresh s'' ref :=
  ⟨hf.1, Nat.lt_of_lt_of_le hf.2 h.length_le⟩

end Store

/-! ## Framed outcomes -/

/-- The outcome of an operation on a value that writes at most the buffer it is given, and gives
back that buffer or a new one. -/
structure Framed (v : Value) (inPlace : Bool) (s : Store) (x : Except Fault Nat × Store) :
    Prop where
  keeps : s.Keeps x.2 (v.IsTarget inPlace)
  result : ∀ ref, x.1 = .ok ref → v.IsTarget inPlace ref ∨ s.IsFresh x.2 ref

section

variable {v : Value} {inPlace : Bool} {s s' : Store} {x : Except Fault Nat × Store}

theorem Framed.error {fault : Fault} (h : s.Keeps s' (v.IsTarget inPlace)) :
    Framed v inPlace s (.error fault, s') :=
  ⟨h, by simp⟩

/-- The buffer itself is the result. -/
theorem framed_self (ref : Nat) (s : Store) : Framed (.buffer ref) true s (.ok ref, s) := by
  refine ⟨.refl s _, ?_⟩
  rintro _ ⟨⟩
  exact Or.inl ⟨rfl, rfl⟩

theorem Delivered.framed (h : Delivered v inPlace s x) : Framed v inPlace s x := by
  cases h with
  | refused fault => exact .error (.refl s _)
  | overwritten ref out gs htarget =>
    refine ⟨(s.keeps_overwrite ref out gs).mono ?_, ?_⟩
    · rintro _ - rfl
      exact htarget
    · rintro _ ⟨⟩
      exact Or.inl htarget
  | added out gs =>
    refine ⟨s.keeps_add out gs _, ?_⟩
    rintro _ ⟨⟩
    exact Or.inr ⟨Nat.le_refl _, by simp⟩

/-- Bytes are lost by overwriting only: with a new buffer as the result, all buffers are kept. -/
theorem Delivered.keeps_of_isFresh (h : Delivered v inPlace s x) {ref : Nat}
    (hok : x.1 = .ok ref) (hfresh : s.IsFresh x.2 ref) : s.Keeps x.2 fun _ => False := by
  cases h with
  | refused fault => cases hok
  | overwritten target out gs htarget =>
    -- overwriting makes no buffer, so there is none that is new
    have hlt : ref < s.buffers.length := by simpa using hfresh.2
    exact absurd hlt (Nat.not_lt.2 hfresh.1)
  | added out gs => exact s.keeps_add out gs _

/-- What follows in place on the result stays within the frame. -/
theorem Framed.trans {ref : Nat} (h : Framed v inPlace s (.ok ref, s'))
    (h' : Framed (.buffer ref) true s' x) : Framed v inPlace s x where
  keeps := by
    refine h.keeps.trans h'.keeps ?_
    -- the second part writes the result of the first: the target, or what the store did not have
    rintro _ hlive ⟨-, ⟨⟩⟩
    rcases h.result ref rfl with htarget | hfresh
    · exact htarget
    · exact absurd hlive (Nat.not_lt.2 hfresh.1)
  result := by
    intro ref' hok
    rcases h'.result ref' hok with ⟨-, ⟨⟩⟩ | hfresh
    · exact (h.result ref rfl).imp_right fun hf => hf.keeps h'.keeps
    · exact Or.inr (.of_keeps h.keeps hfresh)

/-- An operation may be followed by one that works in place on its result. -/
theorem Framed.andThen {action : Action Nat} {f : Nat → Action Nat}
    (h : Framed v inPlace s (action.outcome s))
    (hf : ∀ ref s', Framed (.buffer ref) true s' ((f ref).outcome s')) :
    Framed v inPlace s ((action >>= f).outcome s) := by
  rw [Action.outcome_bind]
  rcases hrun : action.outcome s with ⟨fault | ref, s'⟩ <;> rw [hrun] at h
  · exact h
  · exact h.trans (hf ref s')

theorem Framed.of_extends (h : s.Extends s') (hx : Framed v inPlace s' x) :
    Framed v inPlace s x where
  keeps := (h.keeps _).trans hx.keeps fun _ _ hw => hw
  result := fun ref hok => (hx.result ref hok).imp_right (.of_keeps (h.keeps fun _ => False))

/-- What comes before an operation may add generators. -/
theorem Framed.bind {α : Type} {action : Action α} {f : α → Action Nat} (h : action.Extends)
    (hf : ∀ a s', action.outcome s = (.ok a, s') → Framed v inPlace s' ((f a).outcome s')) :
    Framed v inPlace s ((action >>= f).outcome s) := by
  have hext := h s
  rw [Action.outcome_bind]
  rcases hrun : action.outcome s with ⟨fault | a, s'⟩ <;> rw [hrun] at hext
  · exact .error (hext.keeps _)
  · exact .of_extends hext (hf a s' hrun)

end

/-! ## Transforms that keep to the frame -/

/-- Whatever it is applied to, the transform writes at most the buffer it is given, and gives back
that buffer or a new one. -/
def Transform.IsFramed (t : Transform) : Prop :=
  ∀ v inPlace s, Framed v inPlace s ((t.apply v inPlace).outcome s)

theorem Transform.isFramed_of_isOwn {t : Transform} (ht : t.IsOwn) : t.IsFramed :=
  fun v inPlace s => (delivered_apply ht s v inPlace).framed

theorem Family.isFramed_of_ofParams {k : Kind} {params : Dict} {s s' : Store} {t : Transform}
    (h : ((builtin k).ofParams params).outcome s = (.ok t, s')) : t.IsFramed :=
  Transform.isFramed_of_isOwn (Transform.isOwn_of_kind? (kind?_of_ofParams h))

namespace Registry

variable {r : Registry}

/-- Every transform that the families of the registry make keeps to the frame. -/
def IsFramed (r : Registry) : Prop :=
  ∀ entry ∈ r, ∀ params s s' t, (entry.family.ofParams params).outcome s = (.ok t, s') → t.IsFramed

theorem isFramed_of_isOwn (hr : r.IsOwn) : r.IsFramed := by
  intro entry hentry params s s' t hmade
  obtain ⟨k, hk⟩ := hr entry hentry
  rw [hk] at hmade
  exact Family.isFramed_of_ofParams hmade

theorem isFramed_of_build (hr : r.IsFramed) {name params : Value} {s s' : Store} {t : Transform}
    (h : (r.build name params).outcome s = (.ok t, s')) : t.IsFramed := by
  obtain ⟨entry, hentry, merged, s₁, hmade⟩ := exists_mem_of_build h
  exact hr entry hentry merged s₁ s' t hmade

end Registry

/-! ## Steps -/

namespace Pipeline

variable {t : Transform} {name : Value} {r : Registry} {built : List (Value × Transform)}

/-- To describe a step and to enter it into the journal writes no buffer. -/
theorem framed_applyStep (ht : t.IsFramed) (name v : Value) (inPlace : Bool) (s : Store) :
    Framed v inPlace s ((applyStep name t v inPlace).outcome s) := by
  refine .bind (Action.extends_reading _) fun before s₁ hbefore => ?_
  obtain ⟨-, rfl⟩ := Action.ok_of_outcome_reading hbefore
  have happly := ht v inPlace s₁
  rw [Action.outcome_bind]
  rcases hrun : (t.apply v inPlace).outcome s₁ with ⟨fault | ref, s₂⟩ <;> rw [hrun] at happly
  · exact happly
  simp only [Action.outcome_bind, Action.outcome_get, Action.outcome_reading]
  cases t.describe s₂.bytes with
  | error fault => exact .error happly.keeps
  | ok description =>
    refine ⟨happly.keeps.trans (s₂.keeps_journal _ _) fun _ _ hw => hw, ?_⟩
    exact happly.result

theorem framed_applyFrom (h : ∀ e ∈ built, e.2.IsFramed) (ref : Nat) (s : Store) :
    Framed (.buffer ref) true s ((applyFrom ref built).outcome s) := by
  induction built generalizing ref s with
  | nil => exact framed_self ref s
  | cons e rest ih =>
    obtain ⟨ht, hrest⟩ := List.forall_mem_cons.1 h
    exact (framed_applyStep ht e.1 (.buffer ref) true s).andThen (ih hrest)

theorem framed_applyAll (h : ∀ e ∈ built, e.2.IsFramed) (v : Value) (inPlace : Bool) (s : Store) :
    Framed v inPlace s ((applyAll v inPlace built).outcome s) := by
  cases built with
  | nil =>
    simp only [applyAll]
    split
    · exact framed_self _ s
    · exact (Delivered.toBuffer s v).framed
  | cons e rest =>
    obtain ⟨ht, hrest⟩ := List.forall_mem_cons.1 h
    -- from the second step on, the present buffer is the target or was made by the steps before
    exact (framed_applyStep ht e.1 v inPlace s).andThen (framed_applyFrom hrest)

theorem framed_run (hr : r.IsFramed) (v transforms : Value) (inPlace : Bool) (s : Store) :
    Framed v inPlace s ((run r v transforms inPlace).outcome s) := by
  unfold run
  split
  · exact .error (.refl s _)
  refine .bind (Action.extends_reading _) fun steps s₁ _ => ?_
  refine .bind (extends_build r steps) fun built s₂ hbuilt => ?_
  exact framed_applyAll (forall_of_build (Registry.isFramed_of_build hr) hbuilt) v inPlace s₂

theorem framed_runOne (hr : r.IsFramed) (v name params : Value) (inPlace : Bool) (s : Store) :
    Framed v inPlace s ((runOne r v name params inPlace).outcome s) := by
  refine .bind Action.extends_get fun _ s₁ _ => ?_
  exact framed_run hr v _ inPlace s₁

end Pipeline

/-! ## Requests -/

/-- What a caller asks for: one transform that has been made, one by name and parameters, or a
pipeline. -/
inductive Request where
  | transform (t : Transform)
  | apply (name params : Value)
  | pipeline (transforms : Value)

namespace Request

/-- The request carried out on a value. -/
def run (r : Registry) (v : Value) (inPlace : Bool) : Request → Action Nat
  | transform t => t.apply v inPlace
  | apply name params => Pipeline.runOne r v name params inPlace
  | pipeline transforms => Pipeline.run r v transforms inPlace

/-- A transform in the request is one of this library. -/
def IsOwn (q : Request) : Prop := ∀ t, q = transform t → t.IsOwn

theorem framed_run {r : Registry} (hr : r.IsOwn) {q : Request} (hq : q.IsOwn) (v : Value)
    (inPlace : Bool) (s : Store) : Framed v inPlace s ((q.run r v inPlace).outcome s) := by
  cases q with
  | transform t => exact Transform.isFramed_of_isOwn (hq t rfl) v inPlace s
  | apply name params =>
    exact Pipeline.framed_runOne (Registry.isFramed_of_isOwn hr) v name params inPlace s
  | pipeline transforms =>
    exact Pipeline.framed_run (Registry.isFramed_of_isOwn hr) v transforms inPlace s

/-- **The frame of a request.** Whether it succeeds or fails, it writes no buffer but the one it is
given, and none unless it works in place. Its result is a new buffer, or in place the buffer it is
given. A single transform with a new buffer as its result has written none at all. -/
theorem request_frame {r : Registry} (hr : r.IsOwn) {q : Request} (hq : q.IsOwn) (v : Value)
    (inPlace : Bool) {s s' : Store} {result : Except Fault Nat}
    (hrun : (q.run r v inPlace).outcome s = (result, s')) :
    (∀ other < s.buffers.length, v ≠ .buffer other → s'.bytes other = s.bytes other) ∧
      (inPlace = false → ∀ other < s.buffers.length, s'.bytes other = s.bytes other) ∧
      (∀ ref, result = .ok ref →
        s.IsFresh s' ref ∨ inPlace = true ∧ v = .buffer ref) ∧
      (∀ t ref, q = transform t → result = .ok ref → s.IsFresh s' ref →
        ∀ other < s.buffers.length, s'.bytes other = s.bytes other) := by
  have h := framed_run hr hq v inPlace s
  rw [hrun] at h
  refine ⟨?_, ?_, ?_, ?_⟩
  · intro other hlive hne
    exact h.keeps.bytes_eq other hlive fun htarget => hne htarget.2
  · rintro rfl other hlive
    exact h.keeps.bytes_eq other hlive fun htarget => Bool.false_ne_true htarget.1
  · intro ref hok
    exact (h.result ref hok).symm
  · rintro t ref rfl hok hfresh other hlive
    have hdelivered := Transform.delivered_apply (hq t rfl) s v inPlace
    rw [show (t.apply v inPlace).outcome s = (result, s') from hrun] at hdelivered
    exact (hdelivered.keeps_of_isFresh hok hfresh).bytes_eq other hlive id

/-- A pipeline that overwrites its buffer, makes a longer one and overwrites that. -/
def sample : Request :=
  .pipeline (.list [.text "not",
    .dict [(.text "name", .text "resize"), (.text "params", .dict [(.text "size", .int 3)])],
    .text "reverse"])

/-- Three buffers, two of them with the same bytes. -/
def sampleStore : Store := ⟨[[1, 2], [1, 2], [9]], [], []⟩

/-- The sample on the first buffer, in place: a fourth buffer is its result, and the two others are
as they were. -/
theorem request_frame_sample :
    ((sample.run .builtin (.buffer 0) true).outcome sampleStore).1.toOption = some 3 ∧
      ((sample.run .builtin (.buffer 0) true).outcome sampleStore).2.bytes 0 = [254, 253] ∧
      ∀ other < sampleStore.buffers.length, Value.buffer 0 ≠ .buffer other →
        ((sample.run .builtin (.buffer 0) true).outcome sampleStore).2.bytes other
          = sampleStore.bytes other := by
  refine ⟨by decide +kernel, by decide +kernel, ?_⟩
  have hown : sample.IsOwn := by
    intro t ht
    cases ht
  exact (request_frame Registry.isOwn_builtin hown (.buffer 0) true (Prod.eta _).symm).1

end Request

end Octets
