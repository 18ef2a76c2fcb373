import Octets.Proofs.Bytes.Signed
import Octets.Proofs.Transform.Ranges

/-!
# Resizing is arithmetic modulo a power of 256

Read as an unsigned number, bytes that are resized to `n` keep the last `n` of their base-256
digits. Each branch of a resize comes to that: the same bytes, none, zeros in front, or the last of
them.

* `toNat_drop`, `toNat_replicate_append` — what a cut and what zeros in front do to the number.
* `effect_resize` — a resize writes the digits of the number.
* `ofNat_ofNat_iff` — a resize on the way to another one does not show, for all bytes of a length,
  just if it keeps as many digits as the other one keeps or as there are.
* `resize_arithmetic` — all of it for the transforms.
-/

namespace Octets

open Octets.Random (Generator)

namespace Bytes

/-! ## Digits -/

/-- Bytes of one length are told apart by their number. -/
theorem eq_of_toNat_eq {as bs : Bytes} (hlength : as.length = bs.length) (h : as.toNat = bs.toNat) :
    as = bs := by
  rw [← ofNat_toNat as, ← ofNat_toNat bs, hlength, h]

theorem toNat_replicate_append (k : Nat) (bs : Bytes) :
    toNat (List.replicate k 0 ++ bs) = toNat bs := by
  rw [toNat_append, toNat_replicate, Nat.zero_mul, Nat.zero_add]

/-- The last `n` bytes are the remainder. -/
theorem toNat_drop {bs : Bytes} {n : Nat} (h : n ≤ bs.length) :
    toNat (bs.drop (bs.length - n)) = toNat bs % 256 ^ n := by
  have hlength : (bs.drop (bs.length - n)).length = n := by
    rw [List.length_drop]
    omega
  have hsplit := toNat_append (bs.take (bs.length - n)) (bs.drop (bs.length - n))
  have hlt := toNat_lt (bs.drop (bs.length - n))
  rw [List.take_append_drop, hlength] at hsplit
  rw [hlength] at hlt
  rw [hsplit, Nat.mul_add_mod_self_right, Nat.mod_eq_of_lt hlt]

/-- The last `n` bytes are the last `n` digits. -/
theorem drop_eq_ofNat {bs : Bytes} {n : Nat} (h : n ≤ bs.length) :
    bs.drop (bs.length - n) = ofNat n bs.toNat := by
  apply eq_of_toNat_eq
  · rw [List.length_drop, length_ofNat]
    omega
  · rw [toNat_drop h, toNat_ofNat]

/-- Zeros in front are digits that the number does not have. -/
theorem replicate_append_eq_ofNat {bs : Bytes} {n : Nat} (h : bs.length ≤ n) :
    List.replicate (n - bs.length) 0 ++ bs = ofNat n bs.toNat := by
  apply eq_of_toNat_eq
  · rw [List.length_append, List.length_replicate, length_ofNat]
    omega
  · have hlt : toNat bs < 256 ^ n := (toNat_lt bs).trans_le (Nat.pow_le_pow_right (by decide) h)
    rw [toNat_replicate_append, toNat_ofNat, Nat.mod_eq_of_lt hlt]

/-! ## Digits of digits -/

/-- Digits that are cut first are not missed if no more are kept, or if the number has no others. -/
theorem ofNat_ofNat {n m : Nat} {bs : Bytes} (h : min m bs.length ≤ n) :
    ofNat m (ofNat n bs.toNat).toNat = ofNat m bs.toNat := by
  apply eq_of_toNat_eq
  · rw [length_ofNat, length_ofNat]
  · rw [toNat_ofNat, toNat_ofNat, toNat_ofNat]
    rcases min_le_iff.1 h with hm | hlength
    -- one power divides the other, or the first remainder is the number itself
    · exact Nat.mod_mod_of_dvd _ (Nat.pow_dvd_pow 256 hm)
    · have hlt : toNat bs < 256 ^ n :=
        (toNat_lt bs).trans_le (Nat.pow_le_pow_right (by decide) hlength)
      rw [Nat.mod_eq_of_lt hlt]

/-- **The condition is the weakest one.** Otherwise a one is lost in front of `n` zeros. -/
theorem ofNat_ofNat_iff (n m length : Nat) :
    (∀ bs : Bytes, bs.length = length → ofNat m (ofNat n bs.toNat).toNat = ofNat m bs.toNat) ↔
      min m length ≤ n := by
  constructor
  · intro hall
    by_contra hlt
    obtain ⟨hm, hlength⟩ := lt_min_iff.1 (not_le.1 hlt)
    -- the number `256 ^ n` has one digit more than are kept first, and it is not zero
    have hdigits : ∀ {k : Nat}, n < k → 256 ^ n % 256 ^ k = 256 ^ n := fun hk =>
      Nat.mod_eq_of_lt (Nat.pow_lt_pow_right (by decide) hk)
    have hsame := congrArg toNat (hall (ofNat length (256 ^ n)) (length_ofNat _ _))
    simp only [toNat_ofNat, hdigits hlength, hdigits hm, Nat.mod_self, Nat.zero_mod] at hsame
    exact absurd hsame.symm (Nat.pow_pos (by decide)).ne'
  · intro h bs hlength
    subst hlength
    exact ofNat_ofNat h

end Bytes

/-! ## The transforms -/

namespace Transform

section

variable {s : Store} {v : Value} {bs : Bytes} {gs : List Generator} {n m : Nat}

/-- **A resize writes the digits of the number.** -/
theorem effect_resize (hfits : (resize n).Fits bs) :
    (resize n).effect bs gs = .ok (Bytes.ofNat n bs.toNat, gs) := by
  have hsmall : ¬ Value.maxLength < (n : Int) - bs.length := not_lt.2 hfits
  have hneg : ¬ (n : Int) < 0 := by omega
  rw [effect]
  by_cases hsame : bs.length = n
  · rw [if_pos (by omega), ← hsame, Bytes.ofNat_toNat]
  rw [if_neg (by omega), if_neg hneg]
  by_cases hzero : n = 0
  · subst hzero
    rfl
  rw [if_neg (by omega)]
  by_cases hgrow : bs.length < n
  · rw [if_pos (by omega), if_neg hsmall, Int.toNat_natCast,
      Bytes.replicate_append_eq_ofNat hgrow.le]
  · rw [if_neg (by omega), Int.toNat_natCast, Bytes.drop_eq_ofNat (not_lt.1 hgrow)]

/-- A copy of the last bytes. -/
theorem effect_copy_last (h : n ≤ bs.length) :
    (copy (bs.length - n) n).effect bs gs = .ok (Bytes.ofNat n bs.toNat, gs) := by
  have hall : (bs.drop (bs.length - n)).length ≤ n := by
    rw [List.length_drop]
    omega
  rw [← Nat.cast_sub h, effect_copy_natCast (by omega), List.take_of_length_le hall,
    Bytes.drop_eq_ofNat h]

theorem alwaysMakes_resize (hv : s.Holds v bs) (hfits : (resize n).Fits bs) :
    AlwaysMakes [resize n] s v (Bytes.ofNat n bs.toNat) :=
  alwaysMakes_of_effects (by simp [IsOwn, kind?]) rfl hv
    (effectInTurn_cons (effect_resize hfits))

/-- What can be had from the bytes can be had from what they are resized to, if no digits are cut in
between that are asked for. -/
theorem fits_resize_ofNat (h : min m bs.length ≤ n) (hfits : (resize m).Fits bs) :
    (resize m).Fits (Bytes.ofNat n bs.toNat) := by
  have hnone : (0 : Int) ≤ Value.maxLength := by decide
  simp only [Fits, Bytes.length_ofNat] at hfits ⊢
  rcases min_le_iff.1 h with hm | hlength <;> omega

theorem alwaysMakes_resize_resize (hv : s.Holds v bs) (hn : (resize n).Fits bs)
    (hm : (resize m).Fits (Bytes.ofNat n bs.toNat)) :
    AlwaysMakes [resize n, resize m] s v (Bytes.ofNat m (Bytes.ofNat n bs.toNat).toNat) := by
  refine alwaysMakes_of_effects (by simp [IsOwn, kind?]) rfl hv ?_
  rw [effectInTurn_cons (effect_resize hn), effectInTurn_cons (effect_resize hm), effectInTurn_nil]

/-- **Resizing is arithmetic modulo a power of 256.** The result has the length that is asked for,
and its number is that of the bytes modulo a power of 256; it is the copy of their last bytes, or
zeros and the bytes. A resize before another one does not show if it is to no less than the other
one or than the length; in particular to grow and to shrink again restores the bytes. Otherwise it
shows in some bytes of the length. All of this holds in place and not. -/
theorem resize_arithmetic (hv : s.Holds v bs) :
    (∀ n : Nat, (resize n).Fits bs →
      ∃ out : Bytes, out.length = n ∧ out.toNat = bs.toNat % 256 ^ n ∧
        AlwaysMakes [resize n] s v out ∧
        (n ≤ bs.length → AlwaysMakes [copy (bs.length - n) n] s v out) ∧
        (bs.length < n → out = List.replicate (n - bs.length) 0 ++ bs)) ∧
    (∀ n m : Nat, (resize n).Fits bs → (resize m).Fits bs → min m bs.length ≤ n →
      ∃ out, AlwaysMakes [resize n, resize m] s v out ∧ AlwaysMakes [resize m] s v out) ∧
    (∀ n : Nat, (resize n).Fits bs → bs.length ≤ n →
      AlwaysMakes [resize n, resize bs.length] s v bs) ∧
    ∀ n m : Nat, n < min m bs.length → (m : Int) - n ≤ Value.maxLength →
      ∃ bs' : Bytes, bs'.length = bs.length ∧ ∀ (s' : Store) (w : Value), s'.Holds w bs' →
        ∃ out out', out ≠ out' ∧ AlwaysMakes [resize n, resize m] s' w out ∧
          AlwaysMakes [resize m] s' w out' := by
  have hnone : (0 : Int) ≤ Value.maxLength := by decide
  refine ⟨fun n hn => ?_, fun n m hn hm h => ?_, fun n hn h => ?_, fun n m h hm => ?_⟩
  · refine ⟨Bytes.ofNat n bs.toNat, Bytes.length_ofNat _ _, Bytes.toNat_ofNat _ _,
      alwaysMakes_resize hv hn, fun hle => ?_, fun hlt => ?_⟩
    · exact alwaysMakes_of_effects (by simp [IsOwn, kind?]) rfl hv
        (effectInTurn_cons (effect_copy_last hle))
    · exact (Bytes.replicate_append_eq_ofNat hlt.le).symm
  · refine ⟨_, alwaysMakes_resize_resize hv hn (fits_resize_ofNat h hm), ?_⟩
    rw [Bytes.ofNat_ofNat h]
    exact alwaysMakes_resize hv hm
  · have hsame : (resize bs.length).Fits bs := by
      rw [Fits, sub_self]
      exact hnone
    have hkept : min bs.length bs.length ≤ n := min_le_of_left_le h
    have hback := alwaysMakes_resize_resize hv hn (fits_resize_ofNat hkept hsame)
    rwa [Bytes.ofNat_ofNat hkept, Bytes.ofNat_toNat] at hback
  · obtain ⟨hnm, hlength⟩ := lt_min_iff.1 h
    -- the bytes are those of the weakest condition, so they do not depend on `bs` but on its length
    obtain ⟨bs', hbs', hne⟩ : ∃ bs' : Bytes, bs'.length = bs.length ∧
        Bytes.ofNat m (Bytes.ofNat n bs'.toNat).toNat ≠ Bytes.ofNat m bs'.toNat := by
      by_contra hall
      push Not at hall
      exact absurd ((Bytes.ofNat_ofNat_iff n m bs.length).1 hall) (not_le.2 h)
    refine ⟨bs', hbs', fun s' w hw => ⟨_, _, hne, alwaysMakes_resize_resize hw ?_ ?_,
      alwaysMakes_resize hw ?_⟩⟩
    · rw [Fits]
      omega
    · rw [Fits, Bytes.length_ofNat]
      exact hm
    · rw [Fits]
      omega

end

/-- A view is cut to its last two bytes, and grown to five it can be shrunk to itself again. -/
theorem resize_arithmetic_view :
    AlwaysMakes [resize 2] .empty (.view [0x12, 0x34, 0x56]) [0x34, 0x56] ∧
      AlwaysMakes [resize 5, resize 3] .empty (.view [0x12, 0x34, 0x56]) [0x12, 0x34, 0x56] := by
  have hheld := Store.empty.holds_view [0x12, 0x34, 0x56]
  obtain ⟨hcut, -, hback, -⟩ := resize_arithmetic hheld
  obtain ⟨out, hlength, hnumber, hmakes, -⟩ := hcut 2 (by rw [Fits]; decide)
  have hout : out = [0x34, 0x56] := Bytes.eq_of_toNat_eq hlength (hnumber.trans (by decide))
  exact ⟨hout ▸ hmakes, hback 5 (by rw [Fits]; decide) (by decide)⟩

end Transform

end Octets
