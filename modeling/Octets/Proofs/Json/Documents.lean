import Octets.Json.Reader
import Octets.Proofs.Text.Hex

/-!
# How a text is read as JSON

A text of hexadecimal digits is a number of JSON or none of its documents, and behind the mark `0x`
it is always the latter. A text of brackets only is too deep, if there are enough of them.

* `document_of_isPlain` — a document that begins with no quote or bracket is a word or a number.
* `scalar_of_isHex` — no word is made of hexadecimal digits only.
* `read_digits` — digits are a number or no document.
* `read_mark` — behind the zero of a mark nothing more is read.
* `read_brackets` — opened lists are too deep, if there are more of them than may stand in one
  another.
-/

namespace Octets.Json

/-! ## Numbers -/

/-- The value is an integer or a floating-point number. -/
inductive IsNumber : Value → Prop
  | int (n : Int) : IsNumber (.int n)
  | float (x : Float) : IsNumber (.float x)

/-- Reading stops for another reason than depth. -/
def IsFlat {α : Type} (x : Except Stop α) : Prop :=
  ∃ stop, x = .error stop ∧ ∀ nest, stop ≠ .tooDeep nest

/-- A number is read as one, or has too many digits. -/
theorem value_cases (n : Numeral) : (∃ v, n.value = .ok v ∧ IsNumber v) ∨ IsFlat n.value := by
  unfold Numeral.value
  split
  · split
    · exact Or.inr ⟨_, rfl, nofun⟩
    · exact Or.inl ⟨_, rfl, .int _⟩
  · exact Or.inl ⟨_, rfl, .float _⟩

/-! ## Words and numbers -/

section

variable {c x : Char} {rest s : List Char}

theorem skipBlanks_of_not_blank (pos : Nat) (h : isBlank c = false) :
    Cursor.skipBlanks ⟨pos, c :: rest⟩ = ⟨pos, c :: rest⟩ := by
  simp [Cursor.skipBlanks, Cursor.skip, h]

/-- The character begins no string, list or object, and is neither a blank nor a byte order mark. -/
structure IsPlain (c : Char) : Prop where
  notBlank : isBlank c = false
  notMark : c ∉ ['"', '[', '\x7b', '\ufeff']

/-- **A document that begins plainly is a word or a number.** -/
theorem document_of_isPlain (h : IsPlain c) (rest : List Char) :
    document (c :: rest) = (scalar ⟨0, c :: rest⟩).bind fun (v, cursor) =>
      if cursor.skipBlanks.rest.isEmpty then .ok v
      else .error (.flaw .extra cursor.skipBlanks.pos) := by
  have hc := h.notMark
  simp only [List.mem_cons, List.not_mem_nil, or_false, not_or] at hc
  have hvalue : ∀ fuel, value (fuel + 1) maxDepth ⟨0, c :: rest⟩ = scalar ⟨0, c :: rest⟩ := by
    intro fuel
    rw [value.eq_def]
    -- each other way to begin is that of one of the characters that are ruled out
    dsimp only
    split <;> first | rfl | simp_all
  unfold document
  split
  · rename_i heq
    exact absurd (List.cons.inj heq).1 hc.2.2.2
  · rw [skipBlanks_of_not_blank 0 h.notBlank, hvalue]
    rfl

theorem scalar_of_no_word (cursor : Cursor)
    (h : ∀ w ∈ words, w.1.toList.isPrefixOf cursor.rest = false) :
    scalar cursor =
      match numeral? cursor.rest with
      | none => .error (.flaw .value cursor.pos)
      | some (n, size) => n.value.map fun v => (v, cursor.skip size) := by
  have hnone : (words.findSome? fun w => (cursor.word? w.1).map fun c => (w.2, c)) = none := by
    rw [List.findSome?_eq_none_iff]
    intro w hw
    rw [Cursor.word?, h w hw]
    rfl
  cases hnumeral : numeral? cursor.rest with
  | none => simp only [scalar, hnone, hnumeral]
  | some found => simp only [scalar, hnone, hnumeral]

/-- **No word is made of hexadecimal digits only.** So digits are a number or none. -/
theorem scalar_of_isHex (cursor : Cursor) (h : ∀ d ∈ cursor.rest, (Text.Hex.value? d).isSome) :
    (∃ v after, scalar cursor = .ok (v, after) ∧ IsNumber v) ∨ IsFlat (scalar cursor) := by
  have hwords : ∀ w ∈ words, (w.1.toList.all fun d => (Text.Hex.value? d).isSome) = false := by
    simp only [words, List.forall_mem_cons]
    decide
  have hscalar := scalar_of_no_word cursor fun w hw => by
    rw [Bool.eq_false_iff]
    intro hlead
    have hall : (w.1.toList.all fun d => (Text.Hex.value? d).isSome) = true :=
      List.all_eq_true.2 fun d hd => h d ((List.isPrefixOf_iff_prefix.1 hlead).subset hd)
    rw [hwords w hw] at hall
    cases hall
  rw [hscalar]
  cases numeral? cursor.rest with
  | none => exact Or.inr ⟨_, rfl, nofun⟩
  | some found =>
    obtain ⟨n, size⟩ := found
    rcases value_cases n with ⟨v, hv, hnumber⟩ | ⟨stop, hstop, hflat⟩
    · refine Or.inl ⟨v, cursor.skip size, ?_, hnumber⟩
      simp only [hv]
      rfl
    · refine Or.inr ⟨stop, ?_, hflat⟩
      simp only [hstop]
      rfl

/-! ## Documents -/

/-- A hexadecimal digit begins a document plainly. -/
theorem isPlain_of_isHex (h : (Text.Hex.value? c).isSome) : IsPlain c := by
  obtain ⟨n, hn⟩ := Option.isSome_iff_exists.1 h
  have hdigit := Text.Hex.isDigit_of_value? hn
  have hrange := hdigit.range
  refine ⟨?_, ?_⟩
  · rw [Bool.eq_false_iff]
    intro hblank
    simp only [isBlank, Bool.or_eq_true, beq_iff_eq] at hblank
    rcases hblank with ((rfl | rfl) | rfl) | rfl <;> revert hrange <;> decide
  · intro hmem
    simp only [List.mem_cons, List.not_mem_nil, or_false] at hmem
    rcases hmem with rfl | rfl | rfl | rfl <;> revert hrange <;> decide

/-- A document that stops for another reason than depth is refused for another one. -/
theorem read_of_isFlat (h : IsFlat (document s)) :
    ∃ fault, read s = .error fault ∧ ∀ nest, fault ≠ .tooDeep nest := by
  obtain ⟨stop, hstop, hflat⟩ := h
  rw [read, hstop]
  cases stop with
  | flaw flaw pos => exact ⟨_, rfl, nofun⟩
  | longInteger digits => exact ⟨_, rfl, nofun⟩
  | tooDeep nest => exact absurd rfl (hflat nest)

/-- **Digits are read as a number, or are no document.** -/
theorem read_digits (h : ∀ d ∈ s, (Text.Hex.value? d).isSome) :
    (∃ v, read s = .ok v ∧ IsNumber v) ∨
      ∃ fault, read s = .error fault ∧ ∀ nest, fault ≠ .tooDeep nest := by
  cases s with
  | nil => exact Or.inr (read_of_isFlat ⟨_, rfl, nofun⟩)
  | cons c rest =>
    have hplain := isPlain_of_isHex (List.forall_mem_cons.1 h).1
    have hdocument := document_of_isPlain hplain rest
    rcases scalar_of_isHex ⟨0, c :: rest⟩ h with
      ⟨v, after, hscalar, hv⟩ | ⟨stop, hscalar, hflat⟩
    · rw [hscalar] at hdocument
      by_cases hend : after.skipBlanks.rest.isEmpty
      · refine Or.inl ⟨v, ?_, hv⟩
        rw [read, hdocument]
        simp only [Except.bind, if_pos hend]
      · refine Or.inr (read_of_isFlat ⟨.flaw .extra after.skipBlanks.pos, ?_, nofun⟩)
        rw [hdocument]
        simp only [Except.bind, if_neg hend]
    · refine Or.inr (read_of_isFlat ⟨stop, ?_, hflat⟩)
      rw [hdocument, hscalar]
      rfl

/-- **Behind the zero of a mark nothing more is read.** -/
theorem read_mark (hx : x = 'x' ∨ x = 'X') (rest : List Char) :
    ∃ fault, read ('0' :: x :: rest) = .error fault ∧ ∀ nest, fault ≠ .tooDeep nest := by
  have hwords : ∀ w ∈ words, w.1.toList.head? ≠ some '0' ∧ w.1.toList ≠ [] := by
    simp only [words, List.forall_mem_cons]
    decide
  have hscalar : scalar ⟨0, '0' :: x :: rest⟩ = .ok (.int 0, ⟨1, x :: rest⟩) := by
    rw [scalar_of_no_word]
    · rcases hx with rfl | rfl <;> rfl
    · intro w hw
      obtain ⟨hhead, hne⟩ := hwords w hw
      cases hword : w.1.toList with
      | nil => exact absurd hword hne
      | cons d more =>
        rw [hword] at hhead
        have hd : d ≠ '0' := by simpa using hhead
        simp [List.isPrefixOf, hd]
  have hend : ¬ (Cursor.skipBlanks ⟨1, x :: rest⟩).rest.isEmpty := by
    have hblank : isBlank x = false := by rcases hx with rfl | rfl <;> rfl
    rw [skipBlanks_of_not_blank 1 hblank]
    exact Bool.false_ne_true
  refine read_of_isFlat ⟨.flaw .extra (Cursor.skipBlanks ⟨1, x :: rest⟩).pos, ?_, nofun⟩
  rw [document_of_isPlain (isPlain_of_isHex rfl) (x :: rest), hscalar]
  simp only [Except.bind, if_neg hend]

end

/-! ## Depth -/

/-- Opened lists are too deep, if there are more of them than there is room for. Each takes the fuel
of a value and of an item. -/
theorem value_brackets {room fuel n : Nat} (pos : Nat) (hn : room < n) (hfuel : 2 * room < fuel) :
    value fuel room ⟨pos, List.replicate n '['⟩ = .error (.tooDeep .array) := by
  induction room generalizing fuel n pos with
  | zero =>
    obtain ⟨fuel, rfl⟩ := Nat.exists_eq_add_of_lt hfuel
    obtain ⟨n, rfl⟩ := Nat.exists_eq_add_of_lt hn
    simp [List.replicate_succ, value.eq_def]
  | succ room ih =>
    obtain ⟨fuel, rfl⟩ : ∃ f, fuel = f + 2 := ⟨fuel - 2, by omega⟩
    obtain ⟨n, rfl⟩ : ∃ m, n = m + 2 := ⟨n - 2, by omega⟩
    have hinner : value fuel room ⟨pos + 1, List.replicate (n + 1) '['⟩
        = .error (.tooDeep .array) :=
      ih (pos + 1) (by omega) (by omega)
    have hskip : (Cursor.skip ⟨pos, List.replicate (n + 2) '['⟩ 1).skipBlanks
        = ⟨pos + 1, List.replicate (n + 1) '['⟩ := skipBlanks_of_not_blank (pos + 1) rfl
    rw [value.eq_def]
    simp only [List.replicate_succ] at hskip hinner ⊢
    simp only [hskip, items, hinner]
    rfl

/-- **Opened lists are too deep**, if there are more of them than may stand in one another. -/
theorem read_brackets {n : Nat} (h : maxDepth < n) :
    read (List.replicate n '[') = .error (.tooDeep .array) := by
  have hdocument : document (List.replicate n '[') = .error (.tooDeep .array) := by
    obtain ⟨n, rfl⟩ := Nat.exists_eq_add_of_lt h
    have hvalue :
      value (2 * (maxDepth + n + 1) + 2) maxDepth ⟨0, List.replicate (maxDepth + n + 1) '['⟩
        = .error (.tooDeep .array) := value_brackets 0 h (by omega)
    have hskip : Cursor.skipBlanks ⟨0, List.replicate (maxDepth + n + 1) '['⟩
        = ⟨0, List.replicate (maxDepth + n + 1) '['⟩ := skipBlanks_of_not_blank 0 rfl
    unfold document
    split
    · rename_i heq
      rw [List.replicate_succ] at heq
      cases (List.cons.inj heq).1
    · rw [hskip, List.length_replicate, hvalue]
      rfl
  rw [read, hdocument]

end Octets.Json
