/-!
# Splitting text

Splitting at every place of a character, and at its first place only. What stands before the first
place does not hold the character, and the two parts with the character between them are the text
again.
-/

namespace Octets.Text

/-- The parts of a text between the places of a character. -/
def split (sep : Char) : List Char → List (List Char)
  | [] => [[]]
  | c :: rest =>
    if c = sep then [] :: split sep rest
    else
      match split sep rest with
      | [] => [[c]]
      | part :: more => (c :: part) :: more

/-- The parts before and behind the first place of a character. -/
def cut? (sep : Char) : List Char → Option (List Char × List Char)
  | [] => none
  | c :: rest =>
    if c = sep then some ([], rest) else (cut? sep rest).map fun (before, behind) =>
      (c :: before, behind)

/-! ## Laws of the cut -/

theorem cut?_append {sep : Char} {before : List Char} (h : sep ∉ before) (behind : List Char) :
    cut? sep (before ++ sep :: behind) = some (before, behind) := by
  induction before with
  | nil => simp [cut?]
  | cons c rest ih =>
    rw [List.mem_cons, not_or] at h
    simp [cut?, Ne.symm h.1, ih h.2]

theorem eq_append_of_cut? {sep : Char} {s before behind : List Char}
    (h : cut? sep s = some (before, behind)) : s = before ++ sep :: behind ∧ sep ∉ before := by
  induction s generalizing before with
  | nil => simp [cut?] at h
  | cons c rest ih =>
    rw [cut?] at h
    split at h
    · next hc =>
      simp only [Option.some.injEq, Prod.mk.injEq] at h
      obtain ⟨rfl, rfl⟩ := h
      simp [hc]
    · next hc =>
      obtain ⟨⟨b, d⟩, hcut, heq⟩ := Option.map_eq_some_iff.mp h
      simp only [Prod.mk.injEq] at heq
      obtain ⟨rfl, rfl⟩ := heq
      obtain ⟨hs, hb⟩ := ih hcut
      refine ⟨by rw [hs]; rfl, ?_⟩
      simp only [List.mem_cons, not_or]
      exact ⟨fun he => hc he.symm, hb⟩

theorem cut?_eq_some_iff {sep : Char} {s before behind : List Char} :
    cut? sep s = some (before, behind) ↔ s = before ++ sep :: behind ∧ sep ∉ before :=
  ⟨eq_append_of_cut?, fun ⟨hs, hb⟩ => hs ▸ cut?_append hb behind⟩

end Octets.Text
