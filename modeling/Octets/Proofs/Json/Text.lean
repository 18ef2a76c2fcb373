import Mathlib.Tactic.SplitIfs
import Octets.Json.Text

/-!
# JSON strings read back

What `escape` writes, `unescape` reads as the text that it was, whatever its characters are.

* `unescape_unit` — an escape by number is the character of that number, whatever stands behind it.
* `unescape_escapeChar` — one character as it is written is read as itself.
* `unescape_escape` — a text as it is written is read up to its closing quote.
* `le_of_mem_quote` — no character below U+0020 is written.
-/

namespace Octets.Json

/-! ## Characters by number -/

/-- A character of a low number is no half of a pair, and stands for itself. -/
theorem eq_ofNat_of_number {c : Char} {n : Nat} (h : Text.Units.number c = n) (hn : n < 0xd800) :
    c = Char.ofNat n := by
  unfold Text.Units.number at h
  split at h
  · rename_i hheld
    simp only [Text.Units.isHeld, Text.Units.isHalf, Text.Units.isHigh, Text.Units.isLow,
      Bool.or_eq_true, Bool.and_eq_true, decide_eq_true_eq] at hheld
    omega
  · rw [← h, Char.ofNat_toNat]

theorem le_toNat_of_le_number {c : Char} {n : Nat} (h : n ≤ Text.Units.number c) : n ≤ c.toNat := by
  unfold Text.Units.number at h
  split at h
  · exact Nat.le_trans h (Nat.sub_le _ _)
  · exact h

/-- A unit is written as four digits, which have its value. -/
theorem exists_digits {n : Nat} (h : n < 0x10000) :
    ∃ a b c d, Text.Units.digits 4 n = [a, b, c, d] ∧ unit? a b c d = some n := by
  have hlt : ∀ m, m % 16 < 16 := fun m => Nat.mod_lt m (by decide)
  refine ⟨_, _, _, _, rfl, ?_⟩
  simp only [unit?, Text.Hex.value?_digit (hlt _), Option.bind_eq_bind, Option.bind_some,
    Option.pure_def, Option.some.injEq]
  omega

/-! ## What is written -/

/-- A character is written by a letter, by its number, or as it is. -/
theorem escapeChar_cases (c : Char) :
    (∃ x, x ≠ 'u' ∧ letter? x = some c ∧ escapeChar false c = ['\\', x]) ∨
      (Text.Units.number c < 0x20 ∧ escapeChar false c = Text.Units.escape (Text.Units.number c)) ∨
      (c ≠ '"' ∧ c ≠ '\\' ∧ 0x20 ≤ c.toNat ∧ escapeChar false c = [c]) := by
  simp only [escapeChar, Bool.not_false, Bool.true_or, if_true]
  split_ifs with hmark hn hn hn hn hn hn
  · refine Or.inl ⟨c, ?_, ?_, rfl⟩ <;> rcases hmark with rfl | rfl <;> decide
  -- the five characters that have a letter
  iterate 5
    have hc := eq_ofNat_of_number hn (by decide)
    exact Or.inl ⟨_, by decide, hc ▸ rfl, rfl⟩
  · exact Or.inr (Or.inl ⟨hn, rfl⟩)
  · rw [not_or] at hmark
    exact Or.inr (Or.inr ⟨hmark.1, hmark.2, le_toNat_of_le_number (Nat.not_lt.1 hn), rfl⟩)

theorem le_of_letter? {c x : Char} (h : letter? c = some x) : 0x20 ≤ c.toNat := by
  unfold letter? at h
  split at h <;> first | decide | cases h

theorem le_of_mem_escape {n : Nat} {c : Char} (h : c ∈ Text.Units.escape n) : 0x20 ≤ c.toNat := by
  have hdigit : ∀ m ∈ List.range 16, 0x20 ≤ (Text.Hex.digit m).toNat := by decide
  have hdigits : ∀ count n, ∀ c ∈ Text.Units.digits count n, 0x20 ≤ c.toNat := by
    intro count
    induction count with
    | zero => simp [Text.Units.digits]
    | succ count ih =>
      intro n c hc
      rcases List.mem_append.1 hc with hc | hc
      · exact ih _ c hc
      · rw [List.mem_singleton.1 hc]
        exact hdigit _ (List.mem_range.2 (Nat.mod_lt _ (by decide)))
  rcases List.mem_cons.1 h with rfl | h
  · decide
  rcases List.mem_cons.1 h with rfl | h
  · decide
  · exact hdigits 4 n c h

/-- **No character below U+0020 is written.** -/
theorem le_of_mem_quote {s : List Char} {c : Char} (h : c ∈ quote false s) : 0x20 ≤ c.toNat := by
  have hescape : ∀ c ∈ escape false s, 0x20 ≤ c.toNat := by
    intro c hc
    obtain ⟨d, -, hc⟩ := List.mem_flatMap.1 hc
    rcases escapeChar_cases d with ⟨x, -, hletter, heq⟩ | ⟨hn, heq⟩ | ⟨-, -, hge, heq⟩
    · rw [heq] at hc
      simp only [List.mem_cons, List.not_mem_nil, or_false] at hc
      rcases hc with rfl | rfl
      · decide
      · exact le_of_letter? hletter
    · rw [heq] at hc
      exact le_of_mem_escape hc
    · rw [heq] at hc
      rwa [List.mem_singleton.1 hc]
  simp only [quote, List.mem_cons, List.mem_append, List.not_mem_nil, or_false] at h
  rcases h with rfl | h | rfl
  · decide
  · exact hescape c h
  · decide

/-! ## Reading what stands behind a backslash -/

section

variable (start pos : Nat)

theorem unescape_letter {c x : Char} (hc : c ≠ 'u') (hx : letter? c = some x) (rest : List Char) :
    unescape start pos ('\\' :: c :: rest) = before x (unescape start (pos + 2) rest) := by
  rw [unescape, hx] <;> simp [hc]

/-- An escape by the number of no first half of a pair is not read together with what stands behind
it. -/
theorem unescape_digits {a b c d : Char} {n : Nat} (hunit : unit? a b c d = some n)
    (hhigh : Text.Units.isHigh n = false) (next : Char) (rest : List Char) :
    unescape start pos ('\\' :: 'u' :: a :: b :: c :: d :: next :: rest)
      = before (Text.Units.ofNumber n) (unescape start (pos + 6) (next :: rest)) := by
  by_cases hpair : ∃ e f g h last more, next = '\\' ∧ rest = 'u' :: e :: f :: g :: h :: last :: more
  · obtain ⟨e, f, g, h, last, more, rfl, rfl⟩ := hpair
    rw [unescape, hunit]
    simp only [hhigh, Bool.false_eq_true, if_false]
  · rw [unescape, hunit]
    intro e f g h last more hnext hrest
    exact hpair ⟨e, f, g, h, last, more, hnext, hrest⟩

/-- **An escape by a number below the halves of pairs is the character of that number.** -/
theorem unescape_unit {n : Nat} (h : n < 0xd800) (next : Char) (rest : List Char) :
    unescape start pos (Text.Units.escape n ++ next :: rest)
      = before (Char.ofNat n) (unescape start (pos + 6) (next :: rest)) := by
  obtain ⟨a, b, c, d, hdigits, hunit⟩ := exists_digits (n := n) (by omega)
  have hhigh : Text.Units.isHigh n = false := by
    simp only [Text.Units.isHigh, Bool.and_eq_false_iff, decide_eq_false_iff_not]
    omega
  have hlow : Text.Units.isLow n = false := by
    simp only [Text.Units.isLow, Bool.and_eq_false_iff, decide_eq_false_iff_not]
    omega
  have hchar : Text.Units.ofNumber n = Char.ofNat n := by
    simp [Text.Units.ofNumber, Text.Units.isHalf, hhigh, hlow]
  rw [Text.Units.escape, hdigits, ← hchar]
  exact unescape_digits start pos hunit hhigh next rest

/-- **A character as it is written is read as itself.** -/
theorem unescape_escapeChar (c next : Char) (rest : List Char) :
    unescape start pos (escapeChar false c ++ next :: rest)
      = before c (unescape start (pos + (escapeChar false c).length) (next :: rest)) := by
  rcases escapeChar_cases c with ⟨x, hx, hletter, heq⟩ | ⟨hn, heq⟩ | ⟨hquote, hslash, hge, heq⟩
  · rw [heq]
    exact unescape_letter start pos hx hletter _
  · have hlt : Text.Units.number c < 0xd800 := by omega
    rw [heq, unescape_unit start pos hlt, ← eq_ofNat_of_number rfl hlt]
    rfl
  · rw [heq, List.singleton_append, unescape, if_neg (Nat.not_lt.2 hge)]
    · rfl
    all_goals simp [hquote, hslash]

/-- **A text as it is written is read up to its closing quote.** -/
theorem unescape_escape (s rest : List Char) :
    unescape start pos (escape false s ++ '"' :: rest)
      = .ok (s, ⟨pos + (escape false s).length + 1, rest⟩) := by
  induction s generalizing pos with
  | nil => rw [escape, List.flatMap_nil, List.nil_append, unescape]; rfl
  | cons c s ih =>
    have hcons : escape false (c :: s) = escapeChar false c ++ escape false s := rfl
    obtain ⟨next, more, hmore⟩ : ∃ next more, escape false s ++ '"' :: rest = next :: more :=
      List.exists_cons_of_ne_nil (by simp)
    rw [hcons, List.append_assoc, hmore, unescape_escapeChar, ← hmore, ih, List.length_append]
    simp only [before, Except.map, Nat.add_assoc]

end

end Octets.Json
