import Octets.Proofs.Pipeline.Build
import Octets.Session

/-!
# What the parts of a call change

The calls of a session are put together from a few operations on worlds. Here is what each of them
leaves as it was, so that no proof about calls opens them again.

* `find?_bind`, `find?_bind_of_ne` — what the names of a table stand for after one of them is bound.
* `store_engine` and its like — to look up an engine makes one at most.
* `run_of_journal` — an action that enters nothing into the journal writes no log records.
* `change_eq_error_iff` — a call that works on a buffer is refused just if its action fails.
-/

namespace Octets

open Session

/-! ## Names -/

namespace Session

variable {α : Type} {table : List (String × α)} {id : String}

theorem find?_cons (key : String) (a : α) (rest : List (String × α)) :
    find? ((key, a) :: rest) id = if key = id then some a else find? rest id := by
  by_cases h : key = id <;> simp [find?, h]

@[simp] theorem find?_bind (table : List (String × α)) (id : String) (a : α) :
    find? (bind table id a) id = some a := by
  induction table with
  | nil => simp [bind, find?_cons]
  | cons e rest ih =>
    obtain ⟨key, b⟩ := e
    by_cases h : key = id
    · simp [bind, h, find?_cons]
    · simp [bind, h, find?_cons, ih]

theorem find?_bind_of_ne {other : String} (a : α) (h : other ≠ id) :
    find? (bind table id a) other = find? table other := by
  induction table with
  | nil => simp [bind, find?_cons, h.symm]
  | cons e rest ih =>
    obtain ⟨key, b⟩ := e
    by_cases hkey : key = id
    · simp [bind, hkey, find?_cons, h.symm]
    · simp [bind, hkey, find?_cons, ih]

end Session

namespace World

variable (w : World) (id : String)

/-! ## Engines -/

@[simp] theorem store_engine : (w.engine id).2.store = w.store := by
  unfold engine
  split <;> rfl

@[simp] theorem buffers_engine : (w.engine id).2.buffers = w.buffers := by
  unfold engine
  split <;> rfl

@[simp] theorem instances_engine : (w.engine id).2.instances = w.instances := by
  unfold engine
  split <;> rfl

theorem serial_le_serial_engine : w.serial ≤ (w.engine id).2.serial := by
  unfold engine
  split
  · exact Nat.le_refl _
  · exact Nat.le_succ _

/-! ## Actions -/

section

variable {α : Type} {w : World} {action : Action α}

@[simp] theorem fst_run : (w.run action).1 = (action.outcome w.store).1 := rfl

theorem run_of_journal {result : Except Fault α} {s : Store}
    (h : action.outcome w.store = (result, s)) (hjournal : s.journal = []) :
    w.run action = (result, { w with store := s }) := by
  have hkept : ({ s with journal := [] } : Store) = s := by
    rw [← hjournal]
  simp only [run, h, hjournal, hkept]
  rfl

end

/-! ## Calls that work on a buffer -/

section

variable {w w' : World} {buffer : String} {v : Value} {naming : Naming}
  {action : Value → Action Nat}
  {fault : Fault}

theorem change_of_error (hv : find? w.buffers buffer = some v)
    (hrun : w.run (action v) = (.error fault, w')) :
    w.change buffer naming action = (.error (.fault fault), w') := by
  simp only [change, hv, hrun]

theorem change_eq_error_iff (hv : find? w.buffers buffer = some v) :
    (w.change buffer naming action).1 = .error (.fault fault) ↔
      ((action v).outcome w.store).1 = .error fault := by
  rw [← fst_run]
  rcases hrun : w.run (action v) with ⟨refusal | ref, w'⟩ <;> simp [change, hv, hrun]

end

end World

end Octets
