import Octets.Proofs.Transform.Ranges
import Octets.Proofs.Transform.Shift

/-!
# Shifting by whole bytes

A shift by a multiple of eight moves whole bytes. To the left it puts zeros behind them, to the
right it takes the last of them away; where none would be left, the sign is.

* `toInt_append` — a number with more bytes behind it: the bytes in front count with their sign,
  those behind without one.
* `toInt_append_replicate`, `toInt_take`, `toInt_ediv` — zeros behind multiply by a power of 256,
  and bytes taken away divide by one and round down.
* `whole_byte_shift` — all of it for the transforms.
-/

namespace Octets

open Octets.Random (Generator)

namespace Bytes

/-! ## Numbers in a row -/

/-- **The bytes in front keep the sign, those behind have none.** -/
theorem toInt_append {as : Bytes} (has : as ≠ []) (bs : Bytes) :
    toInt (as ++ bs) = toInt as * 256 ^ bs.length + toNat bs := by
  obtain ⟨b, rest, rfl⟩ := List.exists_cons_of_ne_nil has
  have hnumber : (toNat (b :: (rest ++ bs)) : Int)
      = toNat (b :: rest) * 256 ^ bs.length + toNat bs := by
    exact_mod_cast toNat_append (b :: rest) bs
  rw [List.cons_append, toInt, toInt, hnumber, pow_eq, pow_eq]
  split
  -- the power that a negative number takes off grows by the bytes behind
  · rw [← List.cons_append, List.length_append, pow_add]
    push_cast
    ring
  · rfl

/-- Zeros behind the bytes multiply. -/
theorem toInt_append_replicate {bs : Bytes} (hbs : bs ≠ []) (k : Nat) :
    toInt (bs ++ List.replicate k 0) = toInt bs * 256 ^ k := by
  rw [toInt_append hbs, List.length_replicate, toNat_replicate, Nat.cast_zero, add_zero]

/-- Bytes that are taken away divide, and the rest of the division is what they stand for. -/
theorem toInt_take {bs : Bytes} {k : Nat} (h : k < bs.length) :
    toInt (bs.take (bs.length - k)) = toInt bs / 256 ^ k := by
  have hlength : (bs.drop (bs.length - k)).length = k := by
    rw [List.length_drop]
    omega
  have hfront : bs.take (bs.length - k) ≠ [] := by
    apply List.ne_nil_of_length_pos
    rw [List.length_take]
    omega
  have hsplit := toInt_append hfront (bs.drop (bs.length - k))
  have hlt : (toNat (bs.drop (bs.length - k)) : Int) < 256 ^ k := by
    exact_mod_cast hlength ▸ toNat_lt (bs.drop (bs.length - k))
  rw [List.take_append_drop, hlength] at hsplit
  rw [hsplit, add_comm, Int.add_mul_ediv_right _ _ (by positivity),
    Int.ediv_eq_zero_of_lt (by positivity) hlt, zero_add]

theorem toInt_lt_zero_iff (b : UInt8) (rest : Bytes) : toInt (b :: rest) < 0 ↔ 0x80 ≤ b := by
  have hlt := toNat_lt (b :: rest)
  have hhigh : 0x80 ≤ b ↔ 127 < b.toNat := UInt8.le_iff_toNat_le
  rw [hhigh, toInt, pow_eq]
  split <;> omega

/-- Of a number that has no more bytes than are taken away only the sign is left. -/
theorem toInt_ediv {bs : Bytes} {k : Nat} (h : bs.length ≤ k) :
    toInt bs / 256 ^ k = if toInt bs < 0 then -1 else 0 := by
  have hpow : (256 : Int) ^ k = 2 ^ (8 * k) := by
    rw [pow_mul]
    norm_num
  rw [hpow]
  apply ediv_eq_sign
  -- no bytes have no width, so `fits_iff_width_le` is for the others
  by_cases hbs : bs = []
  · subst hbs
    exact Nat.zero_le _
  · have hwidth := (fits_iff_width_le (List.length_pos_iff.2 hbs) (toInt bs)).1 fits_toInt
    unfold width at hwidth
    omega

/-! ## Shifts by whole bytes -/

theorem scale_eight_mul (v : Int) (k : Nat) : scale v (8 * k) = v * 256 ^ k := by
  rw [scale_of_nonneg v (by positivity), show (8 * k : Int).toNat = 8 * k by omega, pow_mul]
  norm_num

theorem scale_neg_eight_mul (v : Int) (k : Nat) : scale v (-(8 * k)) = v / 256 ^ k := by
  rcases Nat.eq_zero_or_pos k with rfl | hk
  · rw [scale_of_nonneg v (by simp)]
    simp
  · rw [scale_of_neg v (by omega), neg_neg, show (8 * k : Int).toNat = 8 * k by omega, pow_mul]
    norm_num

theorem scale_zero (v : Int) : scale v 0 = v := by
  simpa using scale_eight_mul v 0

/-- Zeros are put behind the bytes. -/
theorem shift_eight_mul {bs : Bytes} (hbs : bs ≠ []) (k : Nat) :
    shift bs.toInt (8 * k) = shift (toInt (bs ++ List.replicate k 0)) 0 := by
  rw [shift, shift, scale_eight_mul, scale_zero, toInt_append_replicate hbs]

/-- The last bytes are taken away. -/
theorem shift_neg_eight_mul {bs : Bytes} {k : Nat} (h : k < bs.length) :
    shift bs.toInt (-(8 * k)) = shift (toInt (bs.take (bs.length - k))) 0 := by
  rw [shift, shift, scale_neg_eight_mul, scale_zero, toInt_take h]

/-- The sign is left. -/
theorem shift_neg_eight_mul_of_le {b : UInt8} {rest : Bytes} {k : Nat}
    (h : (b :: rest).length ≤ k) :
    shift (toInt (b :: rest)) (-(8 * k)) = [if 0x80 ≤ b then 0xff else 0x00] := by
  rw [shift, scale_neg_eight_mul, toInt_ediv h]
  by_cases hhigh : 0x80 ≤ b
  · rw [if_pos ((toInt_lt_zero_iff b rest).2 hhigh), if_pos hhigh]
    decide
  · rw [if_neg (mt (toInt_lt_zero_iff b rest).1 hhigh), if_neg hhigh]
    decide

end Bytes

/-! ## The transforms -/

namespace Transform

section

variable {s : Store} {v : Value} {bs mid : Bytes}

/-- Every number can be shifted to the right, or not at all. -/
theorem canShift_of_nonpos (n : Int) {amount : Int} (h : amount ≤ 0) : CanShift n amount :=
  Or.inr (h.trans_lt (by decide))

theorem alwaysMakes_shift (hv : s.Holds v bs) (hbs : bs ≠ []) {count : Int} (direction : Direction)
    (hcan : CanShift bs.toInt (direction.toLeft count)) :
    AlwaysMakes [shift count direction] s v (Bytes.shift bs.toInt (direction.toLeft count)) :=
  alwaysMakes_of_effects (by simp [IsOwn, kind?]) rfl hv
    (effectInTurn_cons (effect_shift hbs hcan s.generators))

/-- A shift by nothing behind another transform writes the number in its shortest form. -/
theorem alwaysMakes_shift_zero {t : Transform} (ht : t.IsOwn) (htakes : t.takesFixed = true)
    (hv : s.Holds v bs) (h : t.effect bs s.generators = .ok (mid, s.generators)) (hmid : mid ≠ [])
    (direction : Direction) :
    AlwaysMakes [t, shift 0 direction] s v (Bytes.shift mid.toInt 0) := by
  have hnone : direction.toLeft 0 = 0 := by cases direction <;> rfl
  have hcan : CanShift mid.toInt (direction.toLeft 0) := canShift_of_nonpos _ hnone.le
  have hown : ∀ u ∈ [t, shift 0 direction], u.IsOwn :=
    List.forall_mem_cons.2 ⟨ht, by simp [IsOwn, kind?]⟩
  refine alwaysMakes_of_effects hown htakes hv ?_
  rw [effectInTurn_cons h, effectInTurn_cons (effect_shift hmid hcan s.generators),
    effectInTurn_nil, hnone]

/-- A copy of the first bytes. -/
theorem effect_copy_first {length : Nat} (h : length ≤ bs.length) (gs : List Generator) :
    (copy 0 length).effect bs gs = .ok (bs.take length, gs) := by
  have hinside : 0 + length ≤ bs.length := by omega
  have hcopy := effect_copy_natCast hinside gs
  rwa [Nat.cast_zero, List.drop_zero] at hcopy

theorem alwaysMakes_shift_left (hv : s.Holds v bs) (hbs : bs ≠ []) {k : Nat}
    (hcan : CanShift bs.toInt (8 * k)) :
    AlwaysMakes [shift (8 * k) .left] s v
      (Bytes.shift (Bytes.toInt (bs ++ List.replicate k 0)) 0) := by
  rw [← Bytes.shift_eight_mul hbs]
  exact alwaysMakes_shift hv hbs .left hcan

theorem alwaysMakes_shift_right (hv : s.Holds v bs) (hbs : bs ≠ []) (k : Nat) :
    AlwaysMakes [shift (8 * k) .right] s v (Bytes.shift bs.toInt (-(8 * k))) :=
  alwaysMakes_shift hv hbs .right (canShift_of_nonpos _ (by simp [Direction.toLeft]))

/-- **A shift by whole bytes moves whole bytes.** To the left it makes what a shift by nothing makes
of the bytes with zeros behind them. To the right it makes what a shift by nothing makes of the
bytes without the last of them; if all of them would go, one byte stands for the sign. All of this
holds in place and not. -/
theorem whole_byte_shift {b : UInt8} {rest : Bytes} (hv : s.Holds v (b :: rest)) (k : Nat) :
    (CanShift (Bytes.toInt (b :: rest)) (8 * k) →
      ∃ out, AlwaysMakes [shift (8 * k) .left] s v out ∧
        AlwaysMakes [concat (List.replicate k 0), shift 0 .left] s v out) ∧
    (k < (b :: rest).length →
      ∃ out, AlwaysMakes [shift (8 * k) .right] s v out ∧
        AlwaysMakes [copy 0 ((b :: rest).length - k), shift 0 .right] s v out) ∧
    ((b :: rest).length ≤ k →
      AlwaysMakes [shift (8 * k) .right] s v [if 0x80 ≤ b then 0xff else 0x00]) := by
  have hbs : b :: rest ≠ [] := List.cons_ne_nil b rest
  have hright := alwaysMakes_shift_right hv hbs k
  refine ⟨fun hcan => ?_, fun hk => ?_, fun hk => ?_⟩
  · exact ⟨_, alwaysMakes_shift_left hv hbs hcan,
      alwaysMakes_shift_zero (t := concat _) rfl rfl hv rfl (by simp) .left⟩
  · have hfront : List.take ((b :: rest).length - k) (b :: rest) ≠ [] := by
      apply List.ne_nil_of_length_pos
      rw [List.length_take]
      omega
    rw [Bytes.shift_neg_eight_mul hk] at hright
    refine ⟨_, hright, ?_⟩
    rw [← Nat.cast_sub hk.le]
    exact alwaysMakes_shift_zero (t := copy _ _) rfl rfl hv
      (effect_copy_first (Nat.sub_le _ _) s.generators) hfront .right
  · rwa [Bytes.shift_neg_eight_mul_of_le hk] at hright

end

/-- Minus 255 is shifted by one byte in a view: to the left a zero comes behind its bytes, to the
right only the first of them is left, and by three bytes only the sign. -/
theorem whole_byte_shift_negative :
    (∃ out, AlwaysMakes [shift 8 .left] .empty (.view [0xff, 0x01]) out ∧
        AlwaysMakes [concat [0], shift 0 .left] .empty (.view [0xff, 0x01]) out) ∧
      (∃ out, AlwaysMakes [shift 8 .right] .empty (.view [0xff, 0x01]) out ∧
        AlwaysMakes [copy 0 1, shift 0 .right] .empty (.view [0xff, 0x01]) out) ∧
      AlwaysMakes [shift 24 .right] .empty (.view [0xff, 0x01]) [0xff] := by
  have hheld := Store.empty.holds_view [0xff, 0x01]
  obtain ⟨hleft, hright, -⟩ := whole_byte_shift hheld 1
  obtain ⟨-, -, hsign⟩ := whole_byte_shift hheld 3
  exact ⟨hleft (Or.inr (by decide)), hright (by decide), hsign (by decide)⟩

end Transform

end Octets
