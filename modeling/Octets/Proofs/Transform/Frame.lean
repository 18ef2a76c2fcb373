import Octets.Proofs.Transform.Effect

/-!
# What a transform writes

A transform of this library, applied to any value, refuses and leaves the store as it was, or
overwrites the buffer it was given to work on in place, or makes one new buffer. No other buffer is
touched, nor the journal.

* `delivered_apply` — the three cases, for every value, in place or not.
-/

namespace Octets

/-- The value is the buffer with this number, and it may be written. -/
def Value.IsTarget (v : Value) (inPlace : Bool) (ref : Nat) : Prop :=
  inPlace = true ∧ v = .buffer ref

/-- The outcomes that an operation on a value may have on a store. -/
inductive Delivered (v : Value) (inPlace : Bool) (s : Store) : Except Fault Nat × Store → Prop
  | refused (fault : Fault) : Delivered v inPlace s (.error fault, s)
  | overwritten (ref : Nat) (out : Bytes) (gs : List Random.Generator)
      (h : v.IsTarget inPlace ref) :
      Delivered v inPlace s (.ok ref, { s.overwrite ref out with generators := gs })
  | added (out : Bytes) (gs : List Random.Generator) :
      Delivered v inPlace s (.ok s.buffers.length, { (s.add out).2 with generators := gs })

namespace Delivered

variable {v : Value} {inPlace : Bool} {α : Type}

theorem reading {f : (Nat → Bytes) → Except Fault α} {g : α → Action Nat} {s : Store}
    (h : ∀ a, Delivered v inPlace s ((g a).outcome s)) :
    Delivered v inPlace s ((Action.reading f >>= g).outcome s) := by
  rw [Action.outcome_bind, Action.outcome_reading]
  cases f s.bytes with
  | error fault => exact .refused fault
  | ok a => exact h a

theorem allocate (s : Store) (out : Bytes) :
    Delivered v inPlace s ((Action.allocate out).outcome s) :=
  .added out s.generators

/-- Copying a value is refused or makes one new buffer. -/
theorem outcome_toBuffer_cases (s : Store) (v : Value) :
    (∃ fault, (Action.toBuffer v).outcome s = (.error fault, s)) ∨
      ∃ bs, (Action.toBuffer v).outcome s = (.ok s.buffers.length, (s.add bs).2) := by
  unfold Action.toBuffer
  split
  · exact Or.inl ⟨_, rfl⟩
  · rw [Action.outcome_bind, Action.outcome_reading]
    cases v.toBytes s.bytes with
    | error fault => exact Or.inl ⟨fault, rfl⟩
    | ok bs => exact Or.inr ⟨bs, rfl⟩

theorem toBuffer (s : Store) (w : Value) :
    Delivered v inPlace s ((Action.toBuffer w).outcome s) := by
  rcases outcome_toBuffer_cases s w with ⟨fault, h⟩ | ⟨bs, h⟩ <;> rw [h]
  · exact .refused fault
  · exact .added bs s.generators

/-- The workspace for a value may be overwritten, and the generators may be changed. -/
theorem workspace {name : String} {s : Store} {f : Nat → Store → Store}
    (hf : ∀ ref s, ∃ out gs, f ref s = { s.overwrite ref out with generators := gs }) :
    Delivered v inPlace s
      ((do
        let ref ← Action.workspace v inPlace name
        modify (f ref)
        return ref : Action Nat).outcome s) := by
  simp only [Action.outcome_bind, Action.outcome_modify, Action.outcome_pure]
  cases inPlace with
  | false =>
    have hspace : Action.workspace v false name = Action.toBuffer v := rfl
    rcases outcome_toBuffer_cases s v with ⟨fault, h⟩ | ⟨bs, h⟩ <;> rw [hspace, h]
    · exact .refused fault
    · -- the copy is new: to overwrite it is to have made it with the later bytes
      obtain ⟨out, gs, hout⟩ := hf s.buffers.length (s.add bs).2
      simp only [hout, s.overwrite_add]
      exact .added out gs
  | true =>
    cases v with
    | buffer ref =>
      obtain ⟨out, gs, hout⟩ := hf ref s
      show Delivered _ _ s (.ok ref, f ref s)
      rw [hout]
      exact .overwritten ref out gs ⟨rfl, rfl⟩
    | _ => exact .refused _

end Delivered

/-! ## Every kind -/

namespace Transform

variable {s : Store} {v : Value} {inPlace : Bool}

theorem delivered_overwriteWith (name : String) (f : Bytes → Bytes) :
    Delivered v inPlace s ((overwriteWith name v inPlace f).outcome s) := by
  have hmodify : (overwriteWith name v inPlace f).outcome s = (do
      let ref ← Action.workspace v inPlace name
      modify fun s => s.overwrite ref (f (s.bytes ref))
      return ref : Action Nat).outcome s := by
    simp [overwriteWith]
  rw [hmodify]
  exact .workspace fun ref s => ⟨f (s.bytes ref), s.generators, rfl⟩

theorem delivered_applyShuffle (generator : Nat) :
    Delivered v inPlace s ((applyShuffle generator v inPlace).outcome s) := by
  refine .workspace fun ref s => ?_
  unfold shuffleBuffer
  split
  · exact ⟨s.bytes ref, s.generators, by rw [s.overwrite_bytes]⟩
  · exact ⟨_, _, rfl⟩

theorem delivered_applyResize (size : Int) :
    Delivered v inPlace s ((applyResize size v inPlace).outcome s) := by
  refine .reading fun length => ?_
  split
  · split
    · -- a buffer that is given back is one overwritten by its own bytes
      rename_i ref
      have hsame := Delivered.overwritten (s := s) ref (s.bytes ref) s.generators ⟨rfl, rfl⟩
      rwa [s.overwrite_bytes] at hsame
    · exact .toBuffer s _
  split
  · exact .refused _
  split
  · exact .allocate s []
  split
  · split
    · exact .refused _
    · exact .reading fun bs => .allocate s _
  · exact .reading fun bs => .allocate s bs

/-- **A transform of this library refuses, overwrites the buffer it works on in place, or makes one
new buffer.** -/
theorem delivered_apply {t : Transform} (ht : t.IsOwn) (s : Store) (v : Value) (inPlace : Bool) :
    Delivered v inPlace s ((t.apply v inPlace).outcome s) := by
  cases t with
  | bitwise second mode =>
    refine .reading fun length => ?_
    split
    · exact .refused _
    · exact delivered_overwriteWith _ _
  | negate => exact delivered_overwriteWith _ _
  | shift count direction =>
    refine .reading fun length => ?_
    split
    · exact .refused _
    refine .reading fun number => ?_
    dsimp only
    split
    · exact .refused _
    · exact .allocate s _
  | concat second => exact .reading fun bs => .allocate s bs
  | reverse => exact delivered_overwriteWith _ _
  | sort comparator =>
    cases comparator with
    | none => exact delivered_overwriteWith _ _
    | some c =>
      refine .reading fun values => ?_
      rw [Action.outcome_bind, Action.outcome_ofExcept]
      cases c.sort values with
      | error message => exact .refused _
      | ok sorted => exact .allocate s _
  | shuffle kind generator => exact delivered_applyShuffle generator
  | copy offset length =>
    refine .reading fun size => ?_
    split
    · exact .refused _
    · exact .reading fun bs => .allocate s bs
  | resize size => exact delivered_applyResize size
  | added p values => simp [IsOwn, kind?] at ht

end Transform

end Octets
