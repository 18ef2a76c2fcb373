import Mathlib.Data.List.TakeWhile
import Octets.Text.Blank

/-!
# Blanks, and a text without those at its ends

* `isAsciiBlank_iff` — the six blanks that may stand between pairs of digits.
* `isStripped_iff` — `IsStripped` says without an algorithm what `strip` gives: there are blanks
  before, blanks behind, and what is between neither begins nor ends with one. There is one such
  text.
-/

namespace Octets.Text

variable {s t lead trail : List Char}

/-- Space, tab, line feed, vertical tab, form feed and carriage return. -/
def asciiBlanks : List Char := [' ', '\t', '\n', '\x0b', '\x0c', '\r']

theorem isAsciiBlank_iff {c : Char} : isAsciiBlank c = true ↔ c ∈ asciiBlanks := by
  constructor
  · intro h
    simp only [isAsciiBlank, Bool.or_eq_true, Bool.and_eq_true, decide_eq_true_eq, beq_iff_eq] at h
    have hcode : c.toNat ∈ asciiBlanks.map Char.toNat := by
      simp only [asciiBlanks, List.map_cons, List.map_nil, List.mem_cons, List.not_mem_nil,
        Char.reduceToNat]
      omega
    obtain ⟨d, hd, hdc⟩ := List.mem_map.1 hcode
    rwa [← Char.toNat_inj.1 hdc]
  · intro h
    have hall : asciiBlanks.all isAsciiBlank = true := rfl
    exact List.all_eq_true.1 hall c h

/-- `t` is `s` without the blanks at its two ends. -/
structure IsStripped (s t : List Char) : Prop where
  between : ∃ lead trail, s = lead ++ t ++ trail ∧ (∀ c ∈ lead, isBlank c = true) ∧
    ∀ c ∈ trail, isBlank c = true
  first : ∀ c, t.head? = some c → isBlank c = false
  last : ∀ c, t.getLast? = some c → isBlank c = false

theorem not_mem_of_isBlank_eq_false {c : Char} (hc : isBlank c = false)
    (h : ∀ d ∈ s, isBlank d = true) : c ∉ s := by
  intro hmem
  rw [h c hmem] at hc
  cases hc

theorem eq_false_of_head?_dropWhile {c : Char} (h : (s.dropWhile isBlank).head? = some c) :
    isBlank c = false := by
  have hfirst := List.head?_dropWhile_not isBlank s
  rw [h] at hfirst
  exact hfirst

/-- Blanks are cut off up to the first character that is none. -/
theorem dropWhile_append (hlead : ∀ c ∈ lead, isBlank c = true)
    (hfirst : ∀ c, t.head? = some c → isBlank c = false) : (lead ++ t).dropWhile isBlank = t := by
  rw [List.dropWhile_append_of_pos hlead]
  cases t with
  | nil => rfl
  | cons c rest =>
    have hc := hfirst c rfl
    rw [List.dropWhile_cons, hc]
    rfl

theorem isStripped_strip (s : List Char) : IsStripped s (strip s) := by
  -- what is cut off at the end is what is cut off at the start of the reverse
  have hend : _ = (s.dropWhile isBlank).reverse := List.takeWhile_append_dropWhile (p := isBlank)
  have hsplit : s.dropWhile isBlank
      = strip s ++ ((s.dropWhile isBlank).reverse.takeWhile isBlank).reverse := by
    rw [strip, ← List.reverse_append, hend, List.reverse_reverse]
  refine ⟨⟨s.takeWhile isBlank, ((s.dropWhile isBlank).reverse.takeWhile isBlank).reverse,
    ?_, ?_, ?_⟩, ?_, ?_⟩
  · rw [List.append_assoc, ← hsplit, List.takeWhile_append_dropWhile]
  · intro c hc
    exact List.mem_takeWhile_imp hc
  · intro c hc
    exact List.mem_takeWhile_imp (List.mem_reverse.1 hc)
  · intro c hc
    apply eq_false_of_head?_dropWhile (s := s)
    rw [hsplit, List.head?_append, hc]
    rfl
  · intro c hc
    rw [strip, List.getLast?_reverse] at hc
    exact eq_false_of_head?_dropWhile hc

/-- **There is one text between the blanks.** -/
theorem isStripped_iff : IsStripped s t ↔ strip s = t := by
  constructor
  · rintro ⟨⟨lead, trail, rfl, hlead, htrail⟩, hfirst, hlast⟩
    rw [List.append_assoc]
    cases t with
    | nil =>
      rw [List.nil_append, strip, List.dropWhile_append_of_pos hlead,
        List.dropWhile_eq_nil_iff.2 htrail, List.reverse_nil, List.dropWhile_nil, List.reverse_nil]
    | cons d rest =>
      have hhead : ∀ c, (d :: rest ++ trail).head? = some c → isBlank c = false := hfirst
      have htail : ∀ c, (d :: rest).reverse.head? = some c → isBlank c = false := by
        intro c hc
        rw [List.head?_reverse] at hc
        exact hlast c hc
      rw [strip, dropWhile_append hlead hhead, List.reverse_append,
        dropWhile_append (by simpa using htrail) htail, List.reverse_reverse]
  · rintro rfl
    exact isStripped_strip s

/-- Further blanks at the ends make no difference. -/
theorem IsStripped.append (h : IsStripped s t) (hlead : ∀ c ∈ lead, isBlank c = true)
    (htrail : ∀ c ∈ trail, isBlank c = true) : IsStripped (lead ++ s ++ trail) t := by
  obtain ⟨⟨lead', trail', rfl, hlead', htrail'⟩, hfirst, hlast⟩ := h
  refine ⟨⟨lead ++ lead', trail' ++ trail, ?_, ?_, ?_⟩, hfirst, hlast⟩
  · simp only [List.append_assoc]
  · exact List.forall_mem_append.2 ⟨hlead, hlead'⟩
  · exact List.forall_mem_append.2 ⟨htrail', htrail⟩

/-- A text that begins with no blank loses blanks at its end only. -/
theorem IsStripped.exists_cons {c : Char} (hc : isBlank c = false) (h : IsStripped (c :: s) t) :
    ∃ rest trail, t = c :: rest ∧ s = rest ++ trail ∧ ∀ d ∈ trail, isBlank d = true := by
  obtain ⟨lead, trail, hsplit, hlead, htrail⟩ := h.between
  cases lead with
  | cons d lead =>
    obtain ⟨rfl, -⟩ := List.cons.inj (hsplit.trans (List.append_assoc _ _ _))
    exact absurd List.mem_cons_self (not_mem_of_isBlank_eq_false hc hlead)
  | nil =>
    rw [List.nil_append] at hsplit
    cases t with
    | nil =>
      rw [List.nil_append] at hsplit
      exact absurd (hsplit ▸ List.mem_cons_self) (not_mem_of_isBlank_eq_false hc htrail)
    | cons d rest =>
      obtain ⟨rfl, rfl⟩ := List.cons.inj hsplit
      exact ⟨rest, trail, rfl, rfl, htrail⟩

end Octets.Text
