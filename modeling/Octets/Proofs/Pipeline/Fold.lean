import Mathlib
import Octets.Proofs.Pipeline.Build

/-!
# A pipeline as a fold

A pipeline copies at most once and then overwrites what it owns. Seen from outside it might as well
copy before every step: `Pipeline.plain` is the left fold that hands each transform a new copy of
what the one before it gave. What is seen is the final bytes, or the fault with the number of steps
before it, and all generators (`Pipeline.seen`).

Between the two stands `Pipeline.effects`, the fold of the effects, which knows no store.

* `plain_eq_effects` — copying before every step gives the effects.
* `seen_applyFrom`, `seen_applyAll` — so does working in place. The induction is on the steps; the
  present buffer belongs to the store and holds the present bytes.
* `run_eq_plain` — a pipeline in which all steps are read and built gives what the plain fold gives.
-/

namespace Octets

open Octets.Random (Generator)

/-! ## The plain fold -/

/-- Applies the transform to a new buffer with these bytes, not in place, and reads the result. -/
def Transform.onCopy (t : Transform) (bs : Bytes) : Action Bytes := do
  let copy ← Action.allocate bs
  let ref ← t.apply (.buffer copy) false
  Action.read ref

namespace Pipeline

/-- Applies transforms one after the other, each to a new copy of what the one before it gave. A
fault comes with the number of transforms applied before it; `done` counts them. -/
def plain (done : Nat) (bs : Bytes) : List Transform → Store →
    Except (Nat × Fault) Bytes × Store
  | [], s => (.ok bs, s)
  | t :: rest, s =>
    match (t.onCopy bs).outcome s with
    | (.ok out, s') => plain (done + 1) out rest s'
    | (.error fault, s') => (.error (done, fault), s')

/-- The effects of transforms one after the other. -/
def effects (done : Nat) (bs : Bytes) (gs : List Generator) : List Transform →
    Except (Nat × Fault) Bytes × List Generator
  | [] => (.ok bs, gs)
  | t :: rest =>
    match t.effect bs gs with
    | .ok (out, gs') => effects (done + 1) out gs' rest
    | .error fault => (.error (done, fault), gs)

/-- What is seen of a run: the bytes of the result, or the number of steps that were entered into
the journal and the fault; and the generators. The journal had `before` entries. -/
def seen (before : Nat) : Except Fault Nat × Store → Except (Nat × Fault) Bytes × List Generator
  | (.ok ref, s) => (.ok (s.bytes ref), s.generators)
  | (.error fault, s) => (.error (s.journal.length - before, fault), s.generators)

end Pipeline

/-! ## Copies -/

namespace Transform

variable {t : Transform} {bs out : Bytes} {gs : List Generator} {s : Store} {fault : Fault}

theorem outcome_onCopy (ht : t.IsOwn) (bs : Bytes) (s : Store) :
    (t.onCopy bs).outcome s =
      match t.result (.buffer s.buffers.length) false bs (s.add bs).2 with
      | (.ok ref, s') => (.ok (s'.bytes ref), s')
      | (.error fault, s') => (.error fault, s') := by
  simp only [onCopy, Action.outcome_bind, Action.outcome_allocate, Action.outcome_read,
    outcome_apply ht (s.holds_add bs).asBytes?]
  rcases t.result (.buffer s.buffers.length) false bs (s.add bs).2 with ⟨fault | ref, s'⟩ <;> rfl

theorem outcome_onCopy_of_error (ht : t.IsOwn) (h : t.effect bs s.generators = .error fault) :
    (t.onCopy bs).outcome s = (.error fault, (s.add bs).2) := by
  rw [outcome_onCopy ht, result_of_error (s := (s.add bs).2) h]

theorem outcome_onCopy_of_ok (ht : t.IsOwn) (h : t.effect bs s.generators = .ok (out, gs)) :
    ∃ s', (t.onCopy bs).outcome s = (.ok out, s') ∧ s'.generators = gs := by
  obtain ⟨ref, s', hdeliver, hheld, hgs, -⟩ :=
    exists_deliver (s.holds_add bs) false (by simp) t out gs
  refine ⟨s', ?_, hgs⟩
  rw [outcome_onCopy ht, result_of_ok (s := (s.add bs).2) h, hdeliver]
  simp only [hheld.bytes_eq]

end Transform

namespace Pipeline

/-- **Copying before every step gives the effects.** -/
theorem plain_eq_effects {ts : List Transform} (h : ∀ t ∈ ts, t.IsOwn) (done : Nat) (bs : Bytes)
    (s : Store) :
    ((plain done bs ts s).1, (plain done bs ts s).2.generators)
      = effects done bs s.generators ts := by
  -- the copies pile up in the store, but only its generators bear on the steps to come
  induction ts generalizing done bs s with
  | nil => rfl
  | cons t rest ih =>
    obtain ⟨ht, hrest⟩ := List.forall_mem_cons.1 h
    cases heff : t.effect bs s.generators with
    | error fault =>
      simp only [plain, effects, Transform.outcome_onCopy_of_error ht heff, heff]
      rfl
    | ok after =>
      obtain ⟨out, gs⟩ := after
      obtain ⟨s', hrun, rfl⟩ := Transform.outcome_onCopy_of_ok ht heff
      simp only [plain, effects, hrun, heff]
      exact ih hrest (done + 1) out s'

/-! ## Steps -/

section

variable {t : Transform} {name v : Value} {inPlace : Bool} {bs out : Bytes} {s s' : Store}
  {gs : List Generator} {fault : Fault} {ref : Nat}

theorem outcome_applyStep (ht : t.IsOwn) (hv : v.asBytes? s.bytes = some bs) :
    (applyStep name t v inPlace).outcome s =
      match t.result v inPlace bs s with
      | (.error fault, s') => (.error fault, s')
      | (.ok ref, s') =>
        match t.describe s'.bytes with
        | .error fault => (.error fault, s')
        | .ok description =>
          let step : Applied :=
            ⟨s'.display name, description, bs.length, (s'.bytes ref).length, v.isBuffer ref⟩
          (.ok ref, { s' with journal := s'.journal ++ [step] }) := by
  rw [applyStep, Action.outcome_bind, Action.outcome_reading, Value.length_of_asBytes? hv]
  simp only [Action.outcome_bind, Transform.outcome_apply ht hv]
  rcases t.result v inPlace bs s with ⟨fault | ref, s'⟩
  · rfl
  · simp only [Action.outcome_get, Action.outcome_reading]
    cases t.describe s'.bytes with
    | error fault => rfl
    | ok description => simp only [Action.outcome_record, Action.outcome_pure]

theorem outcome_applyStep_of_error (ht : t.IsOwn) (hv : v.asBytes? s.bytes = some bs)
    (h : t.effect bs s.generators = .error fault) :
    (applyStep name t v inPlace).outcome s = (.error fault, s) := by
  rw [outcome_applyStep ht hv, Transform.result_of_error h]

/-- A step that can be described succeeds with its effect and adds one entry to the journal. -/
theorem outcome_applyStep_of_ok (ht : t.IsOwn) (hw : t.IsWritable) (hv : s.Holds v bs)
    (inPlace : Bool) (hplace : inPlace = true → ∃ ref, v = .buffer ref)
    (h : t.effect bs s.generators = .ok (out, gs)) (name : Value) :
    ∃ ref s', (applyStep name t v inPlace).outcome s = (.ok ref, s') ∧
      s'.Holds (.buffer ref) out ∧ s'.generators = gs ∧
      s'.journal.length = s.journal.length + 1 := by
  obtain ⟨ref, s', hdeliver, hheld, hgs, hjournal⟩ :=
    Transform.exists_deliver hv inPlace hplace t out gs
  obtain ⟨description, hdesc⟩ := Transform.exists_describe ht hw s'.bytes
  rw [outcome_applyStep ht hv.asBytes?, Transform.result_of_ok h, hdeliver]
  simp only [hdesc]
  exact ⟨ref, _, rfl, ⟨hheld.asBytes?, hheld.isLive⟩, hgs, by simp [hjournal]⟩

end

/-! ## Runs -/

section

variable {built : List (Value × Transform)} {s : Store} {before : Nat}

/-- **Working in place gives the effects.** -/
theorem seen_applyFrom (h : ∀ e ∈ built, e.2.IsOwn ∧ e.2.IsWritable) {ref : Nat} {bs : Bytes}
    (hv : s.Holds (.buffer ref) bs) (hbefore : before ≤ s.journal.length) :
    seen before ((applyFrom ref built).outcome s)
      = effects (s.journal.length - before) bs s.generators (built.map (·.2)) := by
  induction built generalizing s ref bs with
  | nil =>
    simp [applyFrom, seen, effects, hv.bytes_eq]
  | cons e rest ih =>
    obtain ⟨name, t⟩ := e
    obtain ⟨⟨ht, hw⟩, hrest⟩ := List.forall_mem_cons.1 h
    rw [applyFrom, Action.outcome_bind]
    simp only [List.map_cons, effects]
    cases heff : t.effect bs s.generators with
    | error fault =>
      rw [outcome_applyStep_of_error ht hv.asBytes? heff]
      rfl
    | ok after =>
      obtain ⟨out, gs⟩ := after
      obtain ⟨next, s', hrun, hheld, rfl, hjournal⟩ :=
        outcome_applyStep_of_ok ht hw hv true (fun _ => ⟨ref, rfl⟩) heff name
      -- the journal counts the steps for both sides
      have hcount : s.journal.length - before + 1 = s'.journal.length - before := by omega
      simp only [hrun, hcount]
      exact ih hrest hheld (by omega)

theorem seen_applyAll (h : ∀ e ∈ built, e.2.IsOwn ∧ e.2.IsWritable) {data : Value} {bs : Bytes}
    {inPlace : Bool} (hv : s.Holds data bs)
    (hplace : inPlace = true → ∃ ref, data = .buffer ref) :
    seen s.journal.length ((applyAll data inPlace built).outcome s)
      = effects 0 bs s.generators (built.map (·.2)) := by
  cases built with
  | nil =>
    simp only [applyAll, List.map_nil, effects]
    split
    · rename_i ref
      simp [seen, hv.bytes_eq]
    · rw [Action.outcome_toBuffer hv.asBytes?]
      simp only [seen, s.bytes_add_length]
      rfl
  | cons e rest =>
    obtain ⟨name, t⟩ := e
    obtain ⟨⟨ht, hw⟩, hrest⟩ := List.forall_mem_cons.1 h
    rw [applyAll, Action.outcome_bind]
    simp only [List.map_cons, effects]
    cases heff : t.effect bs s.generators with
    | error fault =>
      rw [outcome_applyStep_of_error ht hv.asBytes? heff]
      simp [seen]
    | ok after =>
      obtain ⟨out, gs⟩ := after
      obtain ⟨next, s', hrun, hheld, rfl, hjournal⟩ :=
        outcome_applyStep_of_ok ht hw hv inPlace hplace heff name
      have hcount : 0 + 1 = s'.journal.length - s.journal.length := by omega
      simp only [hrun, hcount]
      exact seen_applyFrom hrest hheld (by omega)

/-- **A pipeline gives what the plain fold gives**, which has every transform work on a new copy:
the same bytes, or the same fault after as many steps, and the same generators. A buffer may be
worked on in place. -/
theorem run_eq_plain {s s₁ : Store} {data transforms : Value} {bs : Bytes} {read : List Step}
    {built : List (Value × Transform)} (hdata : s.Holds data bs)
    (hsteps : steps s.bytes transforms = .ok read)
    (hbuilt : (build .builtin read).outcome s = (.ok built, s₁))
    (hw : ∀ e ∈ built, e.2.IsWritable) (inPlace : Bool)
    (hplace : inPlace = true → ∃ ref, data = .buffer ref) :
    seen s.journal.length ((run .builtin data transforms inPlace).outcome s)
      = ((plain 0 bs (built.map (·.2)) s₁).1, (plain 0 bs (built.map (·.2)) s₁).2.generators) := by
  have hown := isOwn_of_build Registry.isOwn_builtin hbuilt
  have hext : s.Extends s₁ := extends_of_build hbuilt
  -- building writes no buffer, so the data is what it was before
  have hheld : s₁.Holds data bs :=
    ⟨by rw [hext.bytes]; exact hdata.asBytes?, by rw [hext.buffers]; exact hdata.isLive⟩
  rw [outcome_run (Value.isNull_of_asBytes? hdata.asBytes?) hsteps hbuilt, ← hext.journal,
    seen_applyAll (fun e he => ⟨hown e he, hw e he⟩) hheld hplace,
    plain_eq_effects (isOwn_map hown)]

end

/-! ## A pipeline of many kinds -/

/-- Two buffers and a generator with a script. -/
def sampleStore : Store := ⟨[[1, 2, 3], [9]], [.scripted [0, 1, 2]], []⟩

/-- The steps of a pipeline that keeps the length, then changes it, and fails in the end. -/
def sampleSteps : List Step :=
  [⟨.text "not", .dict []⟩,
    ⟨.text "shuffle", .dict [(.text "rng", .generator .supplied 0)]⟩,
    ⟨.text "resize", .dict [(.text "size", .int 3)]⟩,
    ⟨.text "shift_left", .dict [(.text "count", .int 8)]⟩,
    ⟨.text "reverse", .dict []⟩,
    ⟨.text "copy", .dict [(.text "length", .int 9)]⟩]

/-- The transforms of the sample. -/
def sampleTransforms : List (Value × Transform) :=
  [(.text "not", .negate), (.text "shuffle", .shuffle .supplied 0), (.text "resize", .resize 3),
    (.text "shift_left", .shift 8 .left), (.text "reverse", .reverse), (.text "copy", .copy 0 9)]

/-- The sample as entries. -/
def sampleEntries : Value := .list (sampleSteps.map Step.toValue)

theorem steps_sample : steps sampleStore.bytes sampleEntries = .ok sampleSteps := by
  cbv

theorem build_sample :
    (build .builtin sampleSteps).outcome sampleStore = (.ok sampleTransforms, sampleStore) := by
  cbv

theorem isWritable_sample : ∀ e ∈ sampleTransforms, e.2.IsWritable := by
  have h : Decimal.isWritable 3 = true ∧ Decimal.isWritable 8 = true ∧
      Decimal.isWritable 0 = true ∧ Decimal.isWritable 9 = true := by
    decide +kernel
  simp [sampleTransforms, Transform.IsWritable, h]

/-- The sample worked on in place: the plain fold fails after five steps, and so does the run. -/
theorem run_eq_plain_sample :
    seen 0 ((run .builtin (.buffer 0) sampleEntries true).outcome sampleStore)
        = ((plain 0 [1, 2, 3] (sampleTransforms.map (·.2)) sampleStore).1,
          (plain 0 [1, 2, 3] (sampleTransforms.map (·.2)) sampleStore).2.generators) ∧
      (plain 0 [1, 2, 3] (sampleTransforms.map (·.2)) sampleStore).1
        = .error (5, .ofRange 0 9 4 "copy") := by
  refine ⟨?_, rfl⟩
  exact run_eq_plain (Store.holds_buffer (by decide) rfl) steps_sample build_sample
    isWritable_sample true fun _ => ⟨0, rfl⟩

end Pipeline

end Octets
