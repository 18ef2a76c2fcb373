import Octets.Proofs.Text.Blank
import Octets.Text.Hex

/-!
# The texts of digit pairs

`Spelled` is the grammar of what stands behind the mark: blanks, and pairs of digits with nothing
inside them. `Denotes` is the whole of it: blanks at both ends, then one mark, then the grammar.

* `pairs_eq_ok_iff`, `decode_eq_ok_iff` — the reader accepts the grammar and gives the bytes of the
  pairs.
* `read_eq_ok_iff` — so it does with the ends and the mark; every other text is refused.
* `denotes_layout` — every layout of the pairs denotes the same bytes.
-/

namespace Octets.Text.Hex

/-! ## Digits -/

/-- The character is a hexadecimal digit, in either case, with this value. -/
inductive IsDigit : Char → Nat → Prop
  | decimal {n : Nat} (h : n < 10) : IsDigit (Char.ofNat ('0'.toNat + n)) n
  | lower {n : Nat} (h : n < 6) : IsDigit (Char.ofNat ('a'.toNat + n)) (10 + n)
  | upper {n : Nat} (h : n < 6) : IsDigit (Char.ofNat ('A'.toNat + n)) (10 + n)

theorem IsDigit.lt {c : Char} {n : Nat} (h : IsDigit c n) : n < 16 := by
  cases h <;> omega

theorem value?_eq_some_of_isDigit {c : Char} {n : Nat} (h : IsDigit c n) : value? c = some n := by
  cases h with
  | decimal hn =>
    have hall : ∀ m ∈ List.range 10, value? (Char.ofNat ('0'.toNat + m)) = some m := by decide
    exact hall _ (List.mem_range.2 hn)
  | lower hn =>
    have hall : ∀ m ∈ List.range 6, value? (Char.ofNat ('a'.toNat + m)) = some (10 + m) := by decide
    exact hall _ (List.mem_range.2 hn)
  | upper hn =>
    have hall : ∀ m ∈ List.range 6, value? (Char.ofNat ('A'.toNat + m)) = some (10 + m) := by decide
    exact hall _ (List.mem_range.2 hn)

theorem isDigit_of_value? {c : Char} {n : Nat} (h : value? c = some n) : IsDigit c n := by
  have hchar : ∀ m, m ≤ c.toNat → Char.ofNat (m + (c.toNat - m)) = c := by
    intro m hm
    rw [Nat.add_sub_cancel' hm, Char.ofNat_toNat]
  simp only [value?, Bool.and_eq_true, decide_eq_true_eq] at h
  split at h
  · obtain rfl := Option.some.inj h
    have hdigit : IsDigit (Char.ofNat (0x30 + (c.toNat - 0x30))) (c.toNat - 0x30) :=
      .decimal (by omega)
    rwa [hchar 0x30 (by omega)] at hdigit
  split at h
  · obtain rfl := Option.some.inj h
    have hdigit : IsDigit (Char.ofNat (0x61 + (c.toNat - 0x61))) (10 + (c.toNat - 0x61)) :=
      .lower (by omega)
    rwa [hchar 0x61 (by omega), Nat.add_comm 10] at hdigit
  split at h
  · obtain rfl := Option.some.inj h
    have hdigit : IsDigit (Char.ofNat (0x41 + (c.toNat - 0x41))) (10 + (c.toNat - 0x41)) :=
      .upper (by omega)
    rwa [hchar 0x41 (by omega), Nat.add_comm 10] at hdigit
  · cases h

theorem isDigit_digit {n : Nat} (h : n < 16) : IsDigit (digit n) n :=
  isDigit_of_value? (value?_digit h)

/-- Where the digits are among the characters. -/
theorem IsDigit.range {c : Char} {n : Nat} (h : IsDigit c n) :
    (0x30 ≤ c.toNat ∧ c.toNat ≤ 0x39) ∨ (0x61 ≤ c.toNat ∧ c.toNat ≤ 0x66) ∨
      (0x41 ≤ c.toNat ∧ c.toNat ≤ 0x46) := by
  have hvalue := value?_eq_some_of_isDigit h
  simp only [value?, Bool.and_eq_true, decide_eq_true_eq] at hvalue
  refine Decidable.byContradiction fun hout => ?_
  rw [if_neg (by omega), if_neg (by omega), if_neg (by omega)] at hvalue
  cases hvalue

theorem IsDigit.isWide_eq_false {c : Char} {n : Nat} (h : IsDigit c n) : isWide c = false := by
  have hrange := h.range
  simp only [isWide, decide_eq_false_iff_not]
  omega

theorem IsDigit.isBlank_eq_false {c : Char} {n : Nat} (h : IsDigit c n) : isBlank c = false := by
  have hrange := h.range
  simp only [isBlank, Bool.or_eq_false_iff, Bool.and_eq_false_iff, decide_eq_false_iff_not,
    beq_eq_false_iff_ne]
  omega

theorem isWide_eq_false_of_isAsciiBlank {c : Char} (h : isAsciiBlank c = true) :
    isWide c = false := by
  simp only [isAsciiBlank, Bool.or_eq_true, Bool.and_eq_true, decide_eq_true_eq, beq_iff_eq] at h
  simp only [isWide, decide_eq_false_iff_not]
  omega

theorem IsDigit.isAsciiBlank_eq_false {c : Char} {n : Nat} (h : IsDigit c n) :
    isAsciiBlank c = false := by
  cases hblank : isAsciiBlank c with
  | false => rfl
  | true =>
    have hwide := isBlank_of_isAsciiBlank hblank
    rw [h.isBlank_eq_false] at hwide
    cases hwide

/-! ## Pairs -/

/-- Blanks, and pairs of digits with nothing inside them; the bytes are those of the pairs. -/
inductive Spelled : List Char → Bytes → Prop
  | nil : Spelled [] []
  | blank {c : Char} {cs : List Char} {bs : Bytes} (hc : c ∈ asciiBlanks) (h : Spelled cs bs) :
      Spelled (c :: cs) bs
  | pair {c d : Char} {cs : List Char} {b : UInt8} {bs : Bytes} (hc : IsDigit c (b.toNat / 16))
      (hd : IsDigit d (b.toNat % 16)) (h : Spelled cs bs) : Spelled (c :: d :: cs) (b :: bs)

variable {cs : List Char} {bs : Bytes}

theorem toNat_ofNat_digits {hi lo : Nat} (hhi : hi < 16) (hlo : lo < 16) :
    (UInt8.ofNat (16 * hi + lo)).toNat / 16 = hi ∧
    (UInt8.ofNat (16 * hi + lo)).toNat % 16 = lo := by
  rw [UInt8.toNat_ofNat']
  omega

theorem ofNat_digits (b : UInt8) : UInt8.ofNat (16 * (b.toNat / 16) + b.toNat % 16) = b := by
  rw [Nat.div_add_mod, UInt8.ofNat_toNat]

/-- What the reader accepts is spelled so. -/
theorem spelled_of_pairs {pos : Nat} (h : pairs pos cs = .ok bs) : Spelled cs bs := by
  -- the reader ends in one of eight ways; three of them accept, and one is a refusal behind a pair
  fun_induction pairs pos cs generalizing bs with
  | case1 =>
    cases h
    exact .nil
  | case2 pos c hc =>
    cases h
    exact .blank (isAsciiBlank_iff.1 hc) .nil
  | case5 pos c d rest hc ih => exact .blank (isAsciiBlank_iff.1 hc) (ih h)
  | case8 pos c d rest hc hi lo hlo hhi ih =>
    have hhi := isDigit_of_value? hhi
    have hlo := isDigit_of_value? hlo
    cases hrest : pairs (pos + 2) rest with
    | error other =>
      rw [hrest] at h
      cases h
    | ok out =>
      rw [hrest] at h
      obtain rfl := Except.ok.inj h
      obtain ⟨hhigh, hlow⟩ := toNat_ofNat_digits hhi.lt hlo.lt
      exact .pair (hhigh.symm ▸ hhi) (hlow.symm ▸ hlo) (ih hrest)
  | _ => cases h

/-- What is spelled so the reader accepts, wherever it begins to count. -/
theorem pairs_of_spelled (h : Spelled cs bs) (pos : Nat) : pairs pos cs = .ok bs := by
  induction h generalizing pos with
  | nil => rfl
  | @blank c cs bs hc h ih =>
    -- the reader has a case of its own for the last character
    cases cs with
    | nil =>
      cases h
      rw [pairs, if_pos (isAsciiBlank_iff.2 hc)]
    | cons d rest => rw [pairs, if_pos (isAsciiBlank_iff.2 hc), ih]
  | @pair c d cs b bs hc hd h ih =>
    rw [pairs, if_neg (by rw [hc.isAsciiBlank_eq_false]; exact Bool.false_ne_true),
      value?_eq_some_of_isDigit hc, value?_eq_some_of_isDigit hd]
    show (pairs (pos + 2) cs).map _ = _
    rw [ih, ofNat_digits]
    rfl

theorem pairs_eq_ok_iff (pos : Nat) : pairs pos cs = .ok bs ↔ Spelled cs bs :=
  ⟨spelled_of_pairs, fun h => pairs_of_spelled h pos⟩

theorem Spelled.isWide_eq_false (h : Spelled cs bs) : ∀ c ∈ cs, isWide c = false := by
  induction h with
  | nil => simp
  | blank hc _ ih =>
    exact List.forall_mem_cons.2 ⟨isWide_eq_false_of_isAsciiBlank (isAsciiBlank_iff.2 hc), ih⟩
  | pair hc hd _ ih =>
    exact List.forall_mem_cons.2
      ⟨hc.isWide_eq_false, List.forall_mem_cons.2 ⟨hd.isWide_eq_false, ih⟩⟩

/-- **The reader accepts the grammar.** A character beyond ASCII, which it looks for first, has no
place in it. -/
theorem decode_eq_ok_iff : decode cs = .ok bs ↔ Spelled cs bs := by
  unfold decode
  constructor
  · intro h
    split at h
    · cases h
    · exact (pairs_eq_ok_iff 0).1 h
  · intro h
    have hnarrow : cs.findIdx? isWide = none := List.findIdx?_eq_none_iff.2 h.isWide_eq_false
    rw [hnarrow]
    exact (pairs_eq_ok_iff 0).2 h

/-- Bytes as they are written are spelled so. -/
theorem spelled_encode (bs : Bytes) : Spelled (encode bs) bs := by
  induction bs with
  | nil => exact .nil
  | cons b rest ih =>
    have hb := b.toNat_lt
    exact .pair (isDigit_digit (by omega)) (isDigit_digit (by omega)) ih

/-! ## Ends -/

/-- Blanks before the pairs may go. -/
theorem Spelled.of_append_left {lead : List Char} (hlead : ∀ c ∈ lead, isBlank c = true)
    (h : Spelled (lead ++ cs) bs) : Spelled cs bs := by
  induction lead with
  | nil => exact h
  | cons c lead ih =>
    obtain ⟨hc, hrest⟩ := List.forall_mem_cons.1 hlead
    rw [List.cons_append] at h
    generalize hcs : lead ++ cs = tail at h
    cases h with
    | blank _ h => exact ih hrest (hcs ▸ h)
    | pair hdigit =>
      rw [hdigit.isBlank_eq_false] at hc
      cases hc

/-- Blanks behind the pairs may go. -/
theorem Spelled.of_append_right {trail : List Char} (htrail : ∀ c ∈ trail, isBlank c = true)
    (h : Spelled (cs ++ trail) bs) : Spelled cs bs := by
  generalize hwhole : cs ++ trail = whole at h
  -- the induction is on the pairs; no pair can reach into the blanks behind
  induction h generalizing cs trail with
  | nil =>
    obtain ⟨rfl, -⟩ := List.append_eq_nil_iff.1 hwhole
    exact .nil
  | @blank c whole bs hc h ih =>
    cases cs with
    | nil =>
      rw [List.nil_append] at hwhole
      subst hwhole
      exact ih (List.forall_mem_cons.1 htrail).2 rfl
    | cons d rest =>
      obtain ⟨rfl, hrest⟩ := List.cons.inj hwhole
      exact .blank hc (ih htrail hrest)
  | @pair c d whole b bs hc hd h ih =>
    have hnot : ∀ {x n}, IsDigit x n → x ∉ trail := fun hx =>
      not_mem_of_isBlank_eq_false hx.isBlank_eq_false htrail
    -- how far the text before the blanks reaches: not into the pair, one digit of it, or beyond
    match cs, hwhole with
    | [], hwhole =>
      rw [List.nil_append] at hwhole
      exact absurd (hwhole ▸ List.mem_cons_self) (hnot hc)
    | [x], hwhole =>
      have hrest : trail = d :: whole := (List.cons.inj hwhole).2
      exact absurd (hrest ▸ List.mem_cons_self) (hnot hd)
    | x :: y :: rest, hwhole =>
      simp only [List.cons_append, List.cons.injEq] at hwhole
      obtain ⟨rfl, rfl, rfl⟩ := hwhole
      exact .pair hc hd (ih htrail rfl)

/-! ## The mark -/

/-- A text, and what is left of it without one leading `0x` or `0X`. -/
inductive IsUnmarked : List Char → List Char → Prop
  | lower (rest : List Char) : IsUnmarked ('0' :: 'x' :: rest) rest
  | upper (rest : List Char) : IsUnmarked ('0' :: 'X' :: rest) rest
  | bare {s : List Char} (h : ∀ x rest, s = '0' :: x :: rest → x ≠ 'x' ∧ x ≠ 'X') : IsUnmarked s s

theorem isUnmarked_dropMark (s : List Char) : IsUnmarked s (dropMark s) := by
  fun_cases dropMark s with
  | case1 x rest hx =>
    rcases hx with rfl | rfl
    · exact .lower rest
    · exact .upper rest
  | case2 x rest hx =>
    refine .bare fun y rest' hs => ?_
    obtain ⟨rfl, -⟩ := List.cons.inj (List.cons.inj hs).2
    exact not_or.1 hx
  | case3 _ hother =>
    exact .bare fun x rest hs => absurd hs (hother x rest)

theorem isUnmarked_iff {s t : List Char} : IsUnmarked s t ↔ dropMark s = t := by
  constructor
  · intro h
    cases h with
    | lower rest => simp [dropMark]
    | upper rest => simp [dropMark]
    | bare h =>
      fun_cases dropMark s with
      | case1 x rest hx => exact absurd hx (not_or.2 (h x rest rfl))
      | case2 => rfl
      | case3 => rfl
  · rintro rfl
    exact isUnmarked_dropMark s

/-- **The language of the reader**, with the bytes of each text. -/
def Denotes (s : List Char) (bs : Bytes) : Prop :=
  ∃ body text, IsStripped s body ∧ IsUnmarked body text ∧ Spelled text bs

/-- **The reader accepts its language, and nothing else.** -/
theorem read_eq_ok_iff {s : List Char} : read s = .ok bs ↔ Denotes s bs := by
  constructor
  · intro h
    exact ⟨strip s, dropMark (strip s), isStripped_strip s, isUnmarked_dropMark _,
      decode_eq_ok_iff.1 h⟩
  · rintro ⟨body, text, hbody, htext, hspelled⟩
    rw [read, isStripped_iff.1 hbody, isUnmarked_iff.1 htext]
    exact decode_eq_ok_iff.2 hspelled

/-! ## Layouts -/

theorem Spelled.of_isStripped {body : List Char} (h : Spelled cs bs) (hbody : IsStripped cs body) :
    Spelled body bs := by
  obtain ⟨⟨lead, trail, rfl, hlead, htrail⟩, -, -⟩ := hbody
  rw [List.append_assoc] at h
  exact (h.of_append_left hlead).of_append_right htrail

/-- No digit stands behind the zero of a mark. -/
theorem Spelled.isUnmarked (h : Spelled cs bs) : IsUnmarked cs cs := by
  refine .bare fun x rest hcs => ?_
  subst hcs
  cases h with
  | blank hc => exact absurd hc (by decide)
  | pair hc hd =>
    have hrange := hd.range
    constructor
    · rintro rfl
      revert hrange
      decide
    · rintro rfl
      revert hrange
      decide

/-- Behind a mark, blanks are cut off at the end only. -/
theorem exists_isStripped_mark {x : Char} (hx : isBlank x = false) (text : List Char) :
    ∃ rest trail, text = rest ++ trail ∧ (∀ c ∈ trail, isBlank c = true) ∧
      IsStripped ('0' :: x :: text) ('0' :: x :: rest) := by
  have hstripped := isStripped_strip ('0' :: x :: text)
  obtain ⟨rest, trail, hbody, hsplit, htrail⟩ := hstripped.exists_cons (by decide)
  rw [hbody] at hstripped
  cases rest with
  | nil =>
    rw [List.nil_append] at hsplit
    exact absurd (hsplit ▸ List.mem_cons_self) (not_mem_of_isBlank_eq_false hx htrail)
  | cons d rest =>
    obtain ⟨rfl, rfl⟩ := List.cons.inj hsplit
    exact ⟨rest, trail, rfl, htrail, hstripped⟩

/-- **Every layout denotes the same bytes**: with blanks of any kind at both ends, with a mark or
without, and with blanks between the pairs. -/
theorem denotes_layout {lead mark text trail : List Char} (hlead : ∀ c ∈ lead, isBlank c = true)
    (htrail : ∀ c ∈ trail, isBlank c = true) (hmark : mark ∈ [[], ['0', 'x'], ['0', 'X']])
    (h : Spelled text bs) : Denotes (lead ++ (mark ++ text) ++ trail) bs := by
  simp only [List.mem_cons, List.not_mem_nil, or_false] at hmark
  rcases hmark with rfl | rfl | rfl
  -- without a mark the blanks before the first pair go as well
  · have hstripped := isStripped_strip text
    have hspelled := h.of_isStripped hstripped
    exact ⟨strip text, strip text, hstripped.append hlead htrail, hspelled.isUnmarked, hspelled⟩
  · obtain ⟨rest, blanks, rfl, hblanks, hstripped⟩ :=
      exists_isStripped_mark (x := 'x') (by decide) text
    exact ⟨_, rest, hstripped.append hlead htrail, .lower rest, h.of_append_right hblanks⟩
  · obtain ⟨rest, blanks, rfl, hblanks, hstripped⟩ :=
      exists_isStripped_mark (x := 'X') (by decide) text
    exact ⟨_, rest, hstripped.append hlead htrail, .upper rest, h.of_append_right hblanks⟩

end Octets.Text.Hex
