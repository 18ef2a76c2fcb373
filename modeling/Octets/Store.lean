import Octets.Fault
import Octets.Random.Generator

/-!
# The store

The objects that live longer than one call and change: mutable buffers and generators. Values refer
to them by number. The store also keeps the journal of the steps that pipelines have applied.

An `Action` runs over a store. It ends with a result or a fault, and either way with a store: what
was written before a fault stays written.
-/

namespace Octets

/-- One applied step of a pipeline: the name it was called by and the text that describes it, the
lengths before and after, and whether the buffer was written in place. -/
structure Applied where
  name : String
  description : String
  before : Nat
  after : Nat
  reused : Bool
  deriving DecidableEq, Repr

/-- Buffers and generators by number, and the journal, oldest entry first. -/
structure Store where
  buffers : List Bytes
  generators : List Random.Generator
  journal : List Applied

/-- A computation that may write the store and may fail. -/
abbrev Action := ExceptT Fault (StateM Store)

namespace Store

/-- Nothing in it. -/
def empty : Store := ⟨[], [], []⟩

/-- The bytes of a buffer. -/
def bytes (s : Store) (ref : Nat) : Bytes := s.buffers.getD ref []

/-- A new buffer, and its number. -/
def add (s : Store) (bs : Bytes) : Nat × Store :=
  (s.buffers.length, { s with buffers := s.buffers ++ [bs] })

/-- Overwrites a buffer. -/
def overwrite (s : Store) (ref : Nat) (bs : Bytes) : Store :=
  { s with buffers := s.buffers.set ref bs }

/-- A new generator, and its number. -/
def addGenerator (s : Store) (g : Random.Generator) : Nat × Store :=
  (s.generators.length, { s with generators := s.generators ++ [g] })

/-- The quoted form of a value, with the present contents of its buffers. -/
def shown (s : Store) (v : Value) : String := v.shown s.bytes

/-- The plain form of a value, with the present contents of its buffers. -/
def display (s : Store) (v : Value) : String := v.display s.bytes

theorem bytes_add (s : Store) (bs : Bytes) : (s.add bs).2.bytes (s.add bs).1 = bs := by
  simp [add, bytes]

/-- A new buffer has the next number. -/
@[simp] theorem bytes_add_length (s : Store) (bs : Bytes) :
    (s.add bs).2.bytes s.buffers.length = bs :=
  s.bytes_add bs

theorem bytes_add_of_lt (s : Store) (bs : Bytes) {ref : Nat} (h : ref < s.buffers.length) :
    (s.add bs).2.bytes ref = s.bytes ref := by
  simp [add, bytes, List.getElem?_append_left h]

theorem bytes_overwrite (s : Store) {ref : Nat} (bs : Bytes) (h : ref < s.buffers.length) :
    (s.overwrite ref bs).bytes ref = bs := by
  simp [overwrite, bytes, h]

theorem bytes_overwrite_of_ne (s : Store) {ref other : Nat} (bs : Bytes) (h : other ≠ ref) :
    (s.overwrite ref bs).bytes other = s.bytes other := by
  simp [overwrite, bytes, h.symm]

@[simp] theorem length_buffers_add (s : Store) (bs : Bytes) :
    (s.add bs).2.buffers.length = s.buffers.length + 1 := by
  simp [add]

@[simp] theorem length_buffers_overwrite (s : Store) (ref : Nat) (bs : Bytes) :
    (s.overwrite ref bs).buffers.length = s.buffers.length := by
  simp [overwrite]

@[simp] theorem journal_add (s : Store) (bs : Bytes) : (s.add bs).2.journal = s.journal := rfl

@[simp] theorem journal_overwrite (s : Store) (ref : Nat) (bs : Bytes) :
    (s.overwrite ref bs).journal = s.journal := rfl

/-- A buffer overwritten by its own bytes is as it was. -/
theorem overwrite_bytes (s : Store) (ref : Nat) : s.overwrite ref (s.bytes ref) = s := by
  have hset : s.buffers.set ref (s.buffers.getD ref []) = s.buffers := by
    apply List.ext_getElem
    · simp
    · intro i _ h
      by_cases hi : ref = i
      · subst hi
        simp [h]
      · simp [hi]
  simp only [overwrite, bytes, hset]

/-- Of two byte strings that overwrite a buffer, the second one counts. -/
theorem overwrite_overwrite (s : Store) (ref : Nat) (bs out : Bytes) :
    (s.overwrite ref bs).overwrite ref out = s.overwrite ref out := by
  simp [overwrite]

/-- A new buffer that is overwritten could have been made with the later bytes. -/
theorem overwrite_add (s : Store) (bs out : Bytes) :
    (s.add bs).2.overwrite s.buffers.length out = (s.add out).2 := by
  simp [add, overwrite]

end Store

namespace Action

/-- Fails. -/
def fail {α : Type} (fault : Fault) : Action α := throw fault

/-- Fails because a value is of the wrong kind. -/
def mismatch {α : Type} (cause : Mismatch) : Action α := throw (.wrongKind cause)

/-- Fails because an argument of a transform cannot be used. -/
def object {α : Type} (cause : Objection) (transform : Option String) : Action α :=
  throw (.unusable cause transform)

/-- The result, or the failure for its error. -/
def ofExcept {ε α : Type} (fault : ε → Fault) : Except ε α → Action α
  | .ok a => pure a
  | .error e => throw (fault e)

/-- The bytes of a buffer. -/
def read (ref : Nat) : Action Bytes := return (← get).bytes ref

/-- A new buffer. -/
def allocate (bs : Bytes) : Action Nat := do
  let (ref, s) := (← get).add bs
  set s
  return ref

/-- Overwrites a buffer. -/
def write (ref : Nat) (bs : Bytes) : Action Unit := modify fun s => s.overwrite ref bs

/-- Enters a step into the journal. -/
def record (step : Applied) : Action Unit :=
  modify fun s => { s with journal := s.journal ++ [step] }

/-- Runs an action: its outcome and the store it leaves. -/
def outcome {α : Type} (action : Action α) (s : Store) : Except Fault α × Store := action.run.run s

/-! ## Outcomes -/

section

variable {α β : Type} (s : Store)

@[simp] theorem outcome_pure (a : α) : (pure a : Action α).outcome s = (.ok a, s) := rfl

@[simp] theorem outcome_bind (x : Action α) (f : α → Action β) :
    (x >>= f).outcome s =
      match x.outcome s with
      | (.ok a, s') => (f a).outcome s'
      | (.error fault, s') => (.error fault, s') := by
  show (match x.outcome s with | (r, s') => ExceptT.bindCont f r s') = _
  cases x.outcome s with
  | mk r s' => cases r <;> rfl

@[simp] theorem outcome_map (f : α → β) (x : Action α) :
    (f <$> x).outcome s =
      match x.outcome s with
      | (.ok a, s') => (.ok (f a), s')
      | (.error fault, s') => (.error fault, s') := by
  rw [map_eq_pure_bind, outcome_bind]
  rfl

@[simp] theorem outcome_fail (fault : Fault) :
    (fail fault : Action α).outcome s = (.error fault, s) :=
  rfl

@[simp] theorem outcome_object (cause : Objection) (transform : Option String) :
    (object cause transform : Action α).outcome s = (.error (.unusable cause transform), s) := rfl

@[simp] theorem outcome_ofExcept {ε : Type} (fault : ε → Fault) (x : Except ε α) :
    (ofExcept fault x).outcome s = (x.mapError fault, s) := by
  cases x <;> rfl

@[simp] theorem outcome_get : (get : Action Store).outcome s = (.ok s, s) := rfl

@[simp] theorem outcome_set (s' : Store) : (set s' : Action PUnit).outcome s = (.ok ⟨⟩, s') := rfl

@[simp] theorem outcome_modify (f : Store → Store) :
    (modify f : Action PUnit).outcome s = (.ok ⟨⟩, f s) := rfl

@[simp] theorem outcome_read (ref : Nat) : (read ref).outcome s = (.ok (s.bytes ref), s) := rfl

@[simp] theorem outcome_allocate (bs : Bytes) :
    (allocate bs).outcome s = (.ok s.buffers.length, (s.add bs).2) := rfl

@[simp] theorem outcome_write (ref : Nat) (bs : Bytes) :
    (write ref bs).outcome s = (.ok (), s.overwrite ref bs) := rfl

@[simp] theorem outcome_record (step : Applied) :
    (record step).outcome s = (.ok (), { s with journal := s.journal ++ [step] }) := rfl

end

end Action

end Octets
