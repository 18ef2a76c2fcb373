import Octets.Proofs.Bytes.Signed
import Octets.Proofs.Transform.Effect

/-!
# Shifting multiplies by a power of two

A shift reads the bytes as a signed number, multiplies it by a power of two, rounds down, and writes
what comes out in its shortest form. A negative amount divides.

* `scale_eq_floor` — the rounding is that of the rational product, for numbers of either sign.
* `scale_scale_iff` — two shifts come to one by the sum of their amounts, for all numbers, just if
  the first is not to the right or the second not to the left. Otherwise digits are lost in between.
* `outcome_shift` — the new buffer depends on the number in the bytes only.
* `shift_arithmetic` — all of it for the transforms.
-/

namespace Octets

namespace Bytes

/-! ## Powers of two -/

/-- A number that is at most as long as the power divides into its sign. -/
theorem ediv_eq_sign {v : Int} {k : Nat} (h : bitLength (magnitude v) ≤ k) :
    v / 2 ^ k = if v < 0 then -1 else 0 := by
  have hpow : (0 : Int) < 2 ^ k := by positivity
  have hlt : ((magnitude v : Nat) : Int) < 2 ^ k := by exact_mod_cast (bitLength_le_iff _ _).1 h
  unfold magnitude at hlt
  by_cases hv : v < 0
  · rw [if_neg (by omega)] at hlt
    rw [if_pos hv, Int.ediv_eq_iff_of_pos hpow]
    constructor <;> omega
  · rw [if_pos (by omega)] at hlt
    rw [if_neg hv]
    exact Int.ediv_eq_zero_of_lt (by omega) (by omega)

theorem scale_of_nonneg (v : Int) {s : Int} (h : 0 ≤ s) : scale v s = v * 2 ^ s.toNat := by
  unfold scale
  by_cases hv : v = 0
  · rw [if_pos hv, hv, zero_mul]
  · rw [if_neg hv, if_pos h]
    norm_cast

theorem scale_of_neg (v : Int) {s : Int} (h : s < 0) : scale v s = v / 2 ^ (-s).toNat := by
  unfold scale
  by_cases hv : v = 0
  · rw [if_pos hv, hv, Int.zero_ediv]
  · rw [if_neg hv, if_neg (not_le.2 h)]
    split
    · rename_i hlong
      rw [ediv_eq_sign hlong]
    · norm_cast

theorem mul_two_zpow_neg (x : ℚ) (k : Nat) : x * 2 ^ (-(k : Int)) = x / ((2 ^ k : Nat) : ℚ) := by
  rw [zpow_neg, zpow_natCast, div_eq_mul_inv]
  push_cast
  rfl

/-- **Shifting rounds down the product with a power of two.** -/
theorem scale_eq_floor (v s : Int) : scale v s = ⌊(v : ℚ) * 2 ^ s⌋ := by
  rcases lt_or_ge s 0 with hs | hs
  · obtain ⟨k, rfl⟩ : ∃ k : Nat, s = -k := ⟨(-s).toNat, by omega⟩
    rw [scale_of_neg v hs, mul_two_zpow_neg, Rat.floor_intCast_div_natCast, neg_neg,
      Int.toNat_natCast]
    norm_cast
  · obtain ⟨k, rfl⟩ : ∃ k : Nat, s = k := ⟨s.toNat, by omega⟩
    have hmul : (v : ℚ) * 2 ^ (k : Int) = ((v * 2 ^ k : Int) : ℚ) := by
      rw [zpow_natCast]
      push_cast
      rfl
    rw [scale_of_nonneg v hs, hmul, Int.floor_intCast, Int.toNat_natCast]

/-! ## One shift after another -/

theorem scale_scale {a b : Int} (h : 0 ≤ a ∨ b ≤ 0) (v : Int) :
    scale (scale v a) b = scale v (a + b) := by
  rw [scale_eq_floor (scale v a), scale_eq_floor v (a + b), zpow_add₀ two_ne_zero, ← mul_assoc]
  rcases h with ha | hb
  · -- nothing has been rounded yet
    have hexact : ((scale v a : Int) : ℚ) = v * 2 ^ a := by
      rw [scale_of_nonneg v ha]
      push_cast
      rw [← zpow_natCast, Int.toNat_of_nonneg ha]
    rw [hexact]
  · -- to round down twice is to round down once
    obtain ⟨k, rfl⟩ : ∃ k : Nat, b = -k := ⟨(-b).toNat, by omega⟩
    rw [mul_two_zpow_neg, mul_two_zpow_neg, Int.floor_div_natCast, Int.floor_div_natCast,
      Int.floor_intCast, scale_eq_floor]

/-- **Shifts add up just if none to the left follows one to the right.** -/
theorem scale_scale_iff (a b : Int) :
    (∀ v, scale (scale v a) b = scale v (a + b)) ↔ 0 ≤ a ∨ b ≤ 0 := by
  refine ⟨fun hall => ?_, fun h => scale_scale h⟩
  by_contra hnot
  obtain ⟨ha, hb⟩ := not_or.1 hnot
  rw [not_le] at ha hb
  -- minus one is not changed by a shift to the right, so the shift to the left is not undone
  have hone : ∀ {s : Int}, s < 0 → scale (-1) s = -1 := by
    intro s hs
    rw [scale_of_neg _ hs, ediv_eq_sign (by simp [magnitude, bitLength])]
    rfl
  have hleft : ∀ {s : Int}, 0 ≤ s → scale (-1) s = -(2 ^ s.toNat) := by
    intro s hs
    rw [scale_of_nonneg _ hs, neg_one_mul]
  have hsum := hall (-1)
  rw [hone ha, hleft hb.le] at hsum
  have hstep : b.toNat ≠ 0 := by omega
  rcases lt_or_ge (a + b) 0 with hneg | hnonneg
  · rw [hone hneg, neg_inj, pow_eq_one_iff_of_ne_zero hstep] at hsum
    omega
  · rw [hleft hnonneg, neg_inj] at hsum
    have heq := Int.pow_right_injective (le_refl 2) hsum
    omega

/-! ## Shifted bytes -/

theorem toInt_shift (v amount : Int) : toInt (shift v amount) = scale v amount :=
  toInt_ofInt _

theorem shift_ne_nil (v amount : Int) : shift v amount ≠ [] := by
  apply List.ne_nil_of_length_pos
  rw [shift, length_ofInt]
  exact width_pos _

/-- No other bytes that stand for the shifted number are fewer. -/
theorem length_shift_le {v amount : Int} {bs : Bytes} (hbs : bs ≠ [])
    (h : toInt bs = toInt (shift v amount)) : (shift v amount).length ≤ bs.length := by
  rw [toInt_shift] at h
  rw [shift, ← h]
  exact length_ofInt_le hbs

end Bytes

namespace Transform

/-! ## Shifting bytes -/

/-- The number can be shifted to the left by the amount: the digits of the result can be counted. -/
def CanShift (v amount : Int) : Prop := v = 0 ∨ amount < maxShift

section

variable {s : Store} {v : Value} {bs : Bytes}

theorem effect_shift (hbs : bs ≠ []) {count : Int} {direction : Direction}
    (hcan : CanShift bs.toInt (direction.toLeft count)) (gs : List Random.Generator) :
    (shift count direction).effect bs gs
      = .ok (Bytes.shift bs.toInt (direction.toLeft count), gs) := by
  have hlength : bs.length ≠ 0 := fun hzero => hbs (List.length_eq_zero_iff.1 hzero)
  have hfits : ¬ (bs.toInt ≠ 0 ∧ maxShift ≤ direction.toLeft count) := by
    rintro ⟨hne, hle⟩
    exact hcan.elim hne fun hlt => absurd hle (not_le.2 hlt)
  simp only [effect, if_neg hlength, if_neg hfits]

/-- What is shifted goes into a new buffer, whatever is asked. -/
theorem outcome_shift (h : v.asBytes? s.bytes = some bs) (hbs : bs ≠ []) {count : Int}
    {direction : Direction} (hcan : CanShift bs.toInt (direction.toLeft count)) (inPlace : Bool) :
    ((shift count direction).apply v inPlace).outcome s =
      (.ok s.buffers.length, (s.add (Bytes.shift bs.toInt (direction.toLeft count))).2) := by
  calc ((shift count direction).apply v inPlace).outcome s
      = (shift count direction).result v inPlace bs s := outcome_applyShift h count direction
    _ = _ := result_of_allocate rfl (effect_shift hbs hcan s.generators)

/-- Shifted to the right, or to the left no further than a shift that was possible, every number can
be shifted on. -/
theorem CanShift.scale {a b : Int} (hsign : 0 ≤ a ∨ b ≤ 0) {n : Int} (h : CanShift n (a + b)) :
    CanShift (Bytes.scale n a) b := by
  rcases hsign with ha | hb
  · rcases h with rfl | hlt
    · exact Or.inl (by simp [Bytes.scale])
    · exact Or.inr (by omega)
  · exact Or.inr (lt_of_le_of_lt hb (by decide))

/-- **The arithmetic of shifts.** Bytes that stand for a number are shifted to the shortest bytes
for the number times a power of two, rounded down; whether in place is asked does not matter, nor
which bytes stand for the number. A shift to one side is one to the other by the negative count. Two
shifts come to one by the sum of their amounts, unless one to the left follows one to the right. -/
theorem shift_arithmetic (h : v.asBytes? s.bytes = some bs) (hbs : bs ≠ []) :
    (∀ count direction, CanShift bs.toInt (direction.toLeft count) →
      ∃ out : Bytes, out.toInt = ⌊(bs.toInt : ℚ) * 2 ^ direction.toLeft count⌋ ∧ out ≠ [] ∧
        (∀ other : Bytes, other ≠ [] → other.toInt = out.toInt → out.length ≤ other.length) ∧
        ∀ (s' : Store) (v' : Value) (bs' : Bytes), v'.asBytes? s'.bytes = some bs' → bs' ≠ [] →
          bs'.toInt = bs.toInt → ∀ inPlace,
            ((shift count direction).apply v' inPlace).outcome s'
              = (.ok s'.buffers.length, (s'.add out).2)) ∧
    (∀ (count : Int) (v' : Value) inPlace,
      (shift (-count) .left).apply v' inPlace = (shift count .right).apply v' inPlace ∧
        (shift (-count) .right).apply v' inPlace = (shift count .left).apply v' inPlace) ∧
    ∀ (count₁ count₂ count : Int) (direction₁ direction₂ direction : Direction) (a b : Int),
      direction₁.toLeft count₁ = a → direction₂.toLeft count₂ = b → direction.toLeft count = a + b →
      0 ≤ a ∨ b ≤ 0 → CanShift bs.toInt a → CanShift bs.toInt (a + b) → ∀ inPlace₁ inPlace₂ inPlace,
        ∃ (out : Bytes) (ref : Nat) (s' : Store),
          ((shift count₁ direction₁).apply v inPlace₁ >>= fun ref =>
              (shift count₂ direction₂).apply (.buffer ref) inPlace₂).outcome s = (.ok ref, s') ∧
            s'.bytes ref = out ∧
            ((shift count direction).apply v inPlace).outcome s
              = (.ok s.buffers.length, (s.add out).2) := by
  refine ⟨fun count direction hcan => ?_, fun count v' inPlace => ⟨rfl, ?_⟩, ?_⟩
  · refine ⟨Bytes.shift bs.toInt (direction.toLeft count), ?_, Bytes.shift_ne_nil _ _,
      fun _ => Bytes.length_shift_le, ?_⟩
    · rw [Bytes.toInt_shift, Bytes.scale_eq_floor]
    · intro s' v' bs' h' hbs' heq inPlace
      rw [outcome_shift h' hbs' (heq ▸ hcan) inPlace, heq]
  · have hamount : Direction.right.toLeft (-count) = Direction.left.toLeft count := neg_neg count
    simp only [apply, applyShift, hamount]
  · rintro count₁ count₂ count direction₁ direction₂ direction a b rfl rfl hsum hsign hcan hcansum
      inPlace₁ inPlace₂ inPlace
    have hfirst := outcome_shift h hbs hcan inPlace₁
    generalize hbetween : Bytes.shift bs.toInt (direction₁.toLeft count₁) = between at hfirst
    have hnumber : between.toInt = Bytes.scale bs.toInt (direction₁.toLeft count₁) := by
      rw [← hbetween, Bytes.toInt_shift]
    have hheld : (Value.buffer s.buffers.length).asBytes? (s.add between).2.bytes
        = some between := by
      simp [Value.asBytes?]
    have hcanmore : CanShift between.toInt (direction₂.toLeft count₂) :=
      hnumber ▸ hcansum.scale hsign
    have hsecond := outcome_shift hheld (hbetween ▸ Bytes.shift_ne_nil _ _) hcanmore inPlace₂
    have hboth := Action.outcome_bind s ((shift count₁ direction₁).apply v inPlace₁) fun ref =>
      (shift count₂ direction₂).apply (.buffer ref) inPlace₂
    rw [hfirst] at hboth
    refine ⟨_, _, _, hboth.trans hsecond, rfl, ?_⟩
    rw [outcome_shift h hbs (hsum ▸ hcansum) inPlace, Store.bytes_add_length, hnumber, Bytes.shift,
      Bytes.shift, Bytes.scale_scale hsign, hsum]

end

/-- A negative number is rounded down, and one byte is enough for it afterwards. -/
theorem shift_arithmetic_negative :
    ∃ out : Bytes, out.toInt = -16 ∧ out.length ≤ 1 ∧
      ((shift 4 .right).apply (.view [0xff, 0x01]) true).outcome .empty
        = (.ok 0, (Store.empty.add out).2) := by
  have h : (Value.view [0xff, 0x01]).asBytes? Store.empty.bytes = some [0xff, 0x01] := rfl
  have hcan : CanShift (Bytes.toInt [0xff, 0x01]) (Direction.right.toLeft 4) := Or.inr (by decide)
  obtain ⟨out, hnumber, -, hshort, happly⟩ := (shift_arithmetic h (by decide)).1 4 .right hcan
  have hfloor : out.toInt = -16 := by
    rw [hnumber, show Bytes.toInt [0xff, 0x01] = -255 by decide]
    norm_num [Direction.toLeft]
  refine ⟨out, hfloor, ?_, happly _ _ _ h (by decide) rfl true⟩
  exact hshort [0xf0] (by decide) (by rw [hfloor]; decide)

end Transform

end Octets
