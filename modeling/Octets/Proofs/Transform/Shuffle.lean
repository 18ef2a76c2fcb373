import Mathlib
import Octets.Routine

/-!
# Every arrangement by one sequence of draws

A shuffle swaps the last place with a drawn one, then the last but one, and so on down to the
second. Its draws are `Legal` if each lies at or before the place it is for. What the swaps do to
the places, whatever lies there, is the permutation `origin` of the draws.

* `getElem?_swapDown` — after the swaps a place has the element of its origin.
* `existsUnique_legal` — every permutation that fixes the places behind the last is the origin of
  one legal sequence of draws. The induction is on the last place: its draw is where the permutation
  takes it, and once that swap is undone the permutation fixes it too.
* `shuffle_uniform` — so the legal draws and the permutations of the places of a buffer correspond
  one to one, and independent uniform draws give all of them equal weight.
-/

namespace Octets

open Octets.Random (Generator)
open scoped Nat ENNReal

namespace Rearrange

/-! ## Legal draws -/

/-- One draw for each of the places `i`, …, 1, none behind its own place. -/
inductive Legal : Nat → List Nat → Prop
  | none : Legal 0 []
  | draw {i j : Nat} {js : List Nat} (hj : j ≤ i + 1) (hjs : Legal i js) : Legal (i + 1) (j :: js)

/-- A generator gives legal draws only. -/
theorem legal_draws (i : Nat) (g : Generator) : Legal i (draws i g).1 := by
  induction i generalizing g with
  | zero => exact .none
  | succ i ih => exact .draw (Nat.le_of_lt_succ (g.draw (i + 1)).1.isLt) (ih _)

/-- The draws of a script from the place on that its generator has come to. -/
theorem draws_supplied {i : Nat} {js : List Nat} (h : Legal i js) {script : List Int}
    {answer : List Nat → (i : Nat) → Fin (i + 1)} {calls : List Nat}
    (hanswer : ∀ calls i, answer calls i
      = Fin.ofNat (i + 1) (script.getD (calls.length % script.length) 0 % (i + 1)).toNat)
    (hscript : script.drop calls.length = js.map fun j : Nat => (j : Int)) :
    (draws i (.supplied answer calls)).1 = js := by
  induction h generalizing calls with
  | none => rfl
  | @draw i j js hj hjs ih =>
    have hlength : script.length - calls.length = js.length + 1 := by
      rw [← List.length_drop, hscript, List.length_map, List.length_cons]
    have hlt : calls.length < script.length := by omega
    obtain ⟨hhead, htail⟩ : script[calls.length] = (j : Int) ∧
        script.drop (calls.length + 1) = js.map fun j : Nat => (j : Int) := by
      rw [List.drop_eq_getElem_cons hlt, List.map_cons] at hscript
      exact List.cons.inj hscript
    have hfirst : (answer calls (i + 1)).val = j := by
      have hmod : (j : Int) % ((i + 1 : Nat) + 1 : Int) = j :=
        Int.emod_eq_of_lt (by omega) (by omega)
      rw [hanswer, Nat.mod_eq_of_lt hlt, List.getD_eq_getElem _ _ hlt, hhead, hmod,
        Int.toNat_natCast]
      exact Nat.mod_eq_of_lt (by omega)
    simp only [draws, Generator.draw, hfirst]
    rw [ih (by simpa using htail)]

/-- The legal draws are those that some generator gives. -/
theorem legal_iff_exists_draws {i : Nat} {js : List Nat} :
    Legal i js ↔ ∃ g : Generator, (draws i g).1 = js := by
  constructor
  · intro h
    exact ⟨.scripted (js.map fun j : Nat => (j : Int)), draws_supplied h (fun _ _ => rfl) rfl⟩
  · rintro ⟨g, rfl⟩
    exact legal_draws i g

/-! ## Places -/

/-- Where the elements come from: after the swaps by these draws, the place `k` has the element that
was at the place `origin i js k`. -/
def origin : Nat → List Nat → Equiv.Perm Nat
  | i + 1, j :: js => Equiv.swap (i + 1) j * origin i js
  | _, _ => 1

variable {α : Type} {i j : Nat} {js js' : List Nat}

theorem getElem?_swapIfInBounds {a : Array α} (hi : i < a.size) (hj : j < a.size) (k : Nat) :
    (a.swapIfInBounds i j)[k]? = a[Equiv.swap i j k]? := by
  rw [Array.swapIfInBounds_def, dif_pos hi, dif_pos hj, Array.getElem?_swap]
  by_cases hkj : j = k
  · subst hkj
    rw [if_pos rfl, Equiv.swap_apply_right, Array.getElem?_eq_getElem hi]
  by_cases hki : i = k
  · subst hki
    rw [if_neg hkj, if_pos rfl, Equiv.swap_apply_left, Array.getElem?_eq_getElem hj]
  · rw [if_neg hkj, if_neg hki, Equiv.swap_apply_of_ne_of_ne (Ne.symm hki) (Ne.symm hkj)]

theorem getElem?_swapDown (h : Legal i js) {a : Array α} (hi : i < a.size ∨ i = 0) (k : Nat) :
    (swapDown i js a)[k]? = a[origin i js k]? := by
  induction h generalizing a with
  | none => rfl
  | draw hj _ ih =>
    rw [swapDown, ih (by simp; omega), getElem?_swapIfInBounds (by omega) (by omega)]
    rfl

/-- The places behind the last are not touched. -/
theorem origin_of_lt (h : Legal i js) {k : Nat} (hk : i < k) : origin i js k = k := by
  induction h with
  | none => rfl
  | draw hj _ ih =>
    rw [origin, Equiv.Perm.mul_apply, ih (by omega)]
    exact Equiv.swap_apply_of_ne_of_ne (by omega) (by omega)

/-- The last place has the element of the place that was drawn for it. -/
theorem origin_last (h : Legal i js) (j : Nat) : origin (i + 1) (j :: js) (i + 1) = j := by
  rw [origin, Equiv.Perm.mul_apply, origin_of_lt h (Nat.lt_succ_self i), Equiv.swap_apply_left]

/-- Different legal draws have different origins. -/
theorem origin_injective (h : Legal i js) (h' : Legal i js') (heq : origin i js = origin i js') :
    js = js' := by
  induction h generalizing js' with
  | none =>
    cases h'
    rfl
  | @draw i j js _ hjs ih =>
    cases h' with
    | @draw _ j' js' _ hjs' =>
      have hlast : j = j' := by rw [← origin_last hjs j, heq, origin_last hjs' j']
      subst hlast
      rw [ih hjs' (mul_left_cancel heq)]

/-- **Every permutation that fixes the places behind the last is the origin of one legal sequence of
draws.** -/
theorem existsUnique_legal (i : Nat) (σ : Equiv.Perm Nat) (hσ : ∀ k, i < k → σ k = k) :
    ∃! js, Legal i js ∧ origin i js = σ := by
  refine existsUnique_of_exists_of_unique ?_ ?_
  · induction i generalizing σ with
    | zero =>
      refine ⟨[], .none, ?_⟩
      ext k
      -- the places behind the first are fixed, so the first is fixed as well
      cases k with
      | zero =>
        by_contra hne
        have hfix : σ (σ 0) = σ 0 := hσ _ (Nat.pos_of_ne_zero (Ne.symm hne))
        exact hne (σ.injective hfix).symm
      | succ k => exact (hσ _ (Nat.succ_pos k)).symm
    | succ i ih =>
      have hle : σ (i + 1) ≤ i + 1 := by
        by_contra hgt
        have hfix : σ (σ (i + 1)) = σ (i + 1) := hσ _ (by omega)
        exact hgt (Nat.le_of_eq (σ.injective hfix))
      -- undoing the swap of the last place leaves a permutation that fixes it too
      obtain ⟨js, hjs, horigin⟩ := ih (Equiv.swap (i + 1) (σ (i + 1)) * σ) (by
        intro k hk
        rw [Equiv.Perm.mul_apply]
        rcases Nat.eq_or_lt_of_le hk with rfl | hlt
        · exact Equiv.swap_apply_right _ _
        · rw [hσ k hlt]
          exact Equiv.swap_apply_of_ne_of_ne (by omega) (by omega))
      refine ⟨σ (i + 1) :: js, .draw hle hjs, ?_⟩
      rw [origin, horigin, ← mul_assoc, Equiv.swap_mul_self, one_mul]
  · rintro js js' ⟨hjs, horigin⟩ ⟨hjs', horigin'⟩
    exact origin_injective hjs hjs' (horigin.trans horigin'.symm)

/-! ## Independent draws -/

/-- Independent draws for the places `i`, …, 1, each uniform among the places it may give. -/
noncomputable def uniformDraws : Nat → PMF (List Nat)
  | 0 => PMF.pure []
  | i + 1 => (PMF.uniformOfFintype (Fin (i + 2))).bind fun j => (uniformDraws i).map (j.val :: ·)

theorem legal_of_mem_support {i : Nat} {js : List Nat} (h : js ∈ (uniformDraws i).support) :
    Legal i js := by
  induction i generalizing js with
  | zero =>
    rw [uniformDraws, PMF.support_pure, Set.mem_singleton_iff] at h
    subst h
    exact .none
  | succ i ih =>
    rw [uniformDraws, PMF.mem_support_bind_iff] at h
    obtain ⟨j, -, hj⟩ := h
    obtain ⟨js, hjs, rfl⟩ := (PMF.mem_support_map_iff _ _ _).1 hj
    exact .draw (Nat.le_of_lt_succ j.isLt) (ih hjs)

/-- All legal draws are equally likely. -/
theorem uniformDraws_apply {i : Nat} {js : List Nat} (h : Legal i js) :
    uniformDraws i js = ((i + 1)! : ℝ≥0∞)⁻¹ := by
  induction h with
  | none => simp [uniformDraws]
  | @draw i j js hj hjs ih =>
    have hrest : ∀ j' : Fin (i + 2), (uniformDraws i).map (j'.val :: ·) (j :: js)
        = if j' = ⟨j, Nat.lt_succ_of_le hj⟩ then uniformDraws i js else 0 := by
      intro j'
      rw [PMF.map_apply, tsum_eq_single js]
      · simp [Fin.ext_iff, eq_comm]
      · intro js' hne
        simp [Ne.symm hne]
    rw [uniformDraws, PMF.bind_apply, tsum_fintype]
    simp only [hrest, PMF.uniformOfFintype_apply, Fintype.card_fin, mul_ite, mul_zero,
      Finset.sum_ite_eq', Finset.mem_univ, if_true, ih]
    rw [← ENNReal.mul_inv (by simp) (by simp), Nat.factorial_succ (i + 1), Nat.cast_mul]

/-! ## Buffers -/

/-- Fed these draws, the shuffle of a buffer of `n` bytes takes the byte at the place `k` from the
place `p k`, whatever the bytes are and whichever generator gives the draws. -/
def Arranges (n : Nat) (js : List Nat) (p : Equiv.Perm (Fin n)) : Prop :=
  ∀ (s : Store) (ref generator : Nat) (kind : GeneratorKind) (g : Generator),
    ref < s.buffers.length → (s.bytes ref).length = n → s.generators[generator]? = some g →
    (draws (n - 1) g).1 = js →
    ∃ s', (Routine.shuffleBy (.buffer ref) (.generator kind generator)).outcome s = (.ok (), s') ∧
      (s'.bytes ref).length = n ∧ ∀ k : Fin n, (s'.bytes ref)[k.val]? = (s.bytes ref)[(p k).val]?

/-- The shuffled bytes are those at the origins of the draws. -/
theorem getElem?_shuffle (bs : Bytes) (g : Generator) (k : Nat) :
    (bs.shuffle g).1[k]? = bs[origin (bs.length - 1) (draws (bs.length - 1) g).1 k]? := by
  have hswaps := getElem?_swapDown (legal_draws (bs.length - 1) g) (a := bs.toArray)
    (by rw [List.size_toArray]; omega) k
  simpa [Bytes.shuffle, shuffle] using hswaps

theorem length_shuffle (bs : Bytes) (g : Generator) : (bs.shuffle g).1.length = bs.length := by
  simp [Bytes.shuffle, shuffle, size_swapDown]

/-- To shuffle a buffer is to overwrite it by its shuffled bytes. A buffer of less than two bytes is
left alone, as the shuffled bytes are the same. -/
theorem exists_outcome_shuffleBy {s : Store} {ref generator : Nat} (kind : GeneratorKind)
    {g : Generator} (hlive : ref < s.buffers.length) (hg : s.generators[generator]? = some g) :
    ∃ s', (Routine.shuffleBy (.buffer ref) (.generator kind generator)).outcome s = (.ok (), s') ∧
      s'.bytes ref = ((s.bytes ref).shuffle g).1 := by
  have hlength : Value.length s.bytes (.buffer ref) = .ok (s.bytes ref).length :=
    Value.length_of_asBytes? rfl
  simp only [Routine.shuffleBy, Action.outcome_bind, Action.outcome_reading, hlength]
  by_cases hshort : 2 ≤ (s.bytes ref).length
  · rw [if_pos hshort]
    refine ⟨Transform.shuffleBuffer generator ref s, rfl, ?_⟩
    simp only [Transform.shuffleBuffer, hg]
    exact s.bytes_overwrite _ hlive
  · rw [if_neg hshort]
    refine ⟨s, rfl, List.ext_getElem? fun k => ?_⟩
    have hlast : (s.bytes ref).length - 1 = 0 := by omega
    rw [getElem?_shuffle, hlast]
    rfl

/-- Some buffer has a one at the place `m` only. -/
theorem exists_marked {n : Nat} (m : Fin n) :
    ∃ bs : Bytes, bs.length = n ∧ ∀ k : Nat, bs[k]? = some 1 ↔ k = m := by
  refine ⟨List.ofFn fun k : Fin n => if k = m then 1 else 0, by simp, fun k => ?_⟩
  simp only [List.getElem?_ofFn]
  by_cases hk : k < n
  · simp [hk, Fin.ext_iff]
  · have hne : k ≠ m := by omega
    simp [hk, hne]

/-- The permutation of the places is the origin of the draws. -/
theorem arranges_iff {n : Nat} {js : List Nat} (h : Legal (n - 1) js) (p : Equiv.Perm (Fin n)) :
    Arranges n js p ↔ ∀ k : Fin n, origin (n - 1) js k = p k := by
  constructor
  · intro harranges k
    -- a buffer with one mark tells where its byte comes from
    obtain ⟨bs, hlength, hmark⟩ := exists_marked (p k)
    obtain ⟨g, hg⟩ := legal_iff_exists_draws.1 h
    let s : Store := ⟨[bs], [g], []⟩
    have hlive : 0 < s.buffers.length := Nat.one_pos
    have hgen : s.generators[0]? = some g := rfl
    obtain ⟨s', hrun, hshuffled⟩ := exists_outcome_shuffleBy .twister hlive hgen
    obtain ⟨s'', hrun', -, hplaces⟩ := harranges s 0 0 .twister g hlive hlength hgen hg
    rw [hrun] at hrun'
    cases hrun'
    have hk : (s'.bytes 0)[k.val]? = some 1 := (hplaces k).trans ((hmark _).2 rfl)
    rw [hshuffled, getElem?_shuffle, show s.bytes 0 = bs from rfl, hlength, hg] at hk
    exact (hmark _).1 hk
  · rintro horigin s ref generator kind g hlive hlength hg rfl
    obtain ⟨s', hrun, hshuffled⟩ := exists_outcome_shuffleBy kind hlive hg
    refine ⟨s', hrun, ?_, fun k => ?_⟩
    · rw [hshuffled, length_shuffle, hlength]
    · rw [hshuffled, getElem?_shuffle, hlength, horigin]

/-- The places behind a buffer are not touched. -/
theorem origin_of_le {n : Nat} {js : List Nat} (h : Legal (n - 1) js) {k : Nat} (hk : n ≤ k) :
    origin (n - 1) js k = k := by
  cases n with
  | zero =>
    cases h
    rfl
  | succ n => exact origin_of_lt h hk

/-- The legal draws for a permutation of the places. -/
theorem existsUnique_arranges {n : Nat} (p : Equiv.Perm (Fin n)) :
    ∃! js, Legal (n - 1) js ∧ Arranges n js p := by
  -- the permutation of the places of the buffer, as one of all places
  let σ : Equiv.Perm Nat := p.extendDomain Fin.equivSubtype
  have hσ : ∀ k : Fin n, σ k = p k := fun k => p.extendDomain_apply_image Fin.equivSubtype k
  have hfix : ∀ k, n ≤ k → σ k = k := fun k hk =>
    p.extendDomain_apply_not_subtype Fin.equivSubtype (Nat.not_lt.2 hk)
  have hiff : ∀ js, Legal (n - 1) js ∧ Arranges n js p ↔
      Legal (n - 1) js ∧ origin (n - 1) js = σ := by
    intro js
    refine and_congr_right fun h => (arranges_iff h p).trans ⟨fun hall => ?_, fun heq k => ?_⟩
    · ext k
      rcases Nat.lt_or_ge k n with hk | hk
      · rw [hall ⟨k, hk⟩, ← hσ]
      · rw [origin_of_le h hk, hfix k hk]
    · rw [heq, hσ]
  simpa only [hiff] using existsUnique_legal (n - 1) σ fun k hk => hfix k (by omega)

/-- Each legal sequence of draws makes one permutation of the places. -/
theorem existsUnique_perm {n : Nat} {js : List Nat} (h : Legal (n - 1) js) :
    ∃! p, Arranges n js p := by
  have hlt : ∀ k < n, origin (n - 1) js k < n := by
    intro k hk
    by_contra hge
    have hfix := origin_of_le h (Nat.not_lt.1 hge)
    exact hge (((origin (n - 1) js).injective hfix).symm ▸ hk)
  let f : Fin n → Fin n := fun k => ⟨origin (n - 1) js k, hlt k k.isLt⟩
  have hf : Function.Injective f := by
    intro k k' heq
    exact Fin.ext ((origin (n - 1) js).injective (Fin.mk.inj heq))
  refine ⟨Equiv.ofBijective f (Finite.injective_iff_bijective.1 hf), ?_, ?_⟩
  · exact (arranges_iff h _).2 fun _ => rfl
  · intro p hp
    ext k
    exact ((arranges_iff h p).1 hp k).symm

/-- **A shuffle by independent uniform draws is uniform.** Each permutation of the places of a
buffer is made by one legal sequence of draws, and each legal sequence makes one permutation; the
legal sequences are those that a generator can give. So every permutation has the same weight. -/
theorem shuffle_uniform (n : Nat) :
    (∀ p : Equiv.Perm (Fin n), ∃! js, Legal (n - 1) js ∧ Arranges n js p) ∧
      (∀ js, Legal (n - 1) js → ∃! p, Arranges n js p) ∧
      (∀ js, Legal (n - 1) js ↔ ∃ g : Generator, (draws (n - 1) g).1 = js) ∧
      ∀ p, (uniformDraws (n - 1)).toOuterMeasure {js | Arranges n js p} = (n ! : ℝ≥0∞)⁻¹ := by
  refine ⟨existsUnique_arranges, fun _ => existsUnique_perm, fun _ => legal_iff_exists_draws, ?_⟩
  intro p
  obtain ⟨js, ⟨hlegal, harranges⟩, hunique⟩ := existsUnique_arranges p
  have hsupport : {js | Arranges n js p} ∩ (uniformDraws (n - 1)).support
      = {js} ∩ (uniformDraws (n - 1)).support := by
    ext js'
    constructor
    · rintro ⟨harranges', hmem⟩
      exact ⟨hunique js' ⟨legal_of_mem_support hmem, harranges'⟩, hmem⟩
    · rintro ⟨rfl, hmem⟩
      exact ⟨harranges, hmem⟩
  have hfactorial : (n - 1 + 1)! = n ! := by
    cases n <;> rfl
  rw [PMF.toOuterMeasure_apply_eq_of_inter_support_eq _ hsupport,
    PMF.toOuterMeasure_apply_singleton, uniformDraws_apply hlegal, hfactorial]

end Rearrange

end Octets
