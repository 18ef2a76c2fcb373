/-!
# Styled text

A terminal takes some characters of a text as orders to change its colours: U+001B, an opening
bracket, digits with semicolons and question marks, and one letter. `plain` is the text without
these sequences, for a stream that is no terminal.
-/

namespace Octets.Text.Styling

/-- May the character stand between the bracket and the letter? -/
def isParameter (c : Char) : Bool := c.isDigit || c == ';' || c == '?'

/-- What stands behind a sequence, if `c` starts one and `rest` goes on with it. -/
def behind? (c : Char) (rest : List Char) : Option (List Char) :=
  match c, rest with
  | '\x1b', '[' :: rest =>
    match rest.dropWhile isParameter with
    | letter :: behind => if letter.isAlpha then some behind else none
    | [] => none
  | _, _ => none

theorem length_behind? {c : Char} {rest behind : List Char} (h : behind? c rest = some behind) :
    behind.length ≤ rest.length := by
  unfold behind? at h
  split at h
  · rename_i more
    have hle := (List.dropWhile_sublist isParameter (l := more)).length_le
    split at h
    · rename_i hdrop
      split at h
      · cases h
        rw [hdrop] at hle
        simp only [List.length_cons] at hle ⊢
        omega
      · cases h
    · cases h
  · cases h

/-- The text without the sequences in it. -/
def plain : List Char → List Char
  | [] => []
  | c :: rest =>
    match _h : behind? c rest with
    | some behind => plain behind
    | none => c :: plain rest
termination_by s => s.length
decreasing_by
  · exact Nat.lt_succ_of_le (length_behind? _h)
  · exact Nat.lt_succ_self _

/-- A text without U+001B is plain. -/
theorem plain_eq_self {s : List Char} (h : '\x1b' ∉ s) : plain s = s := by
  induction s with
  | nil => rw [plain]
  | cons c rest ih =>
    rw [List.mem_cons, not_or] at h
    have hnone : behind? c rest = none := by
      unfold behind?
      split
      · exact absurd rfl h.1
      · rfl
    rw [plain]
    split
    · rename_i hsome
      rw [hnone] at hsome
      cases hsome
    · rw [ih h.2]

end Octets.Text.Styling
