import Mathlib
import Octets.Bytes

/-!
# Signed numbers in the fewest bytes

What ties the readers of `Octets.Bytes` to its writers.

* `fits_toInt` / `fits_iff_width_le` — a string of `n` bytes stands for a number that fits into `n`
  bytes, and a number fits into `n` bytes exactly if `n` is at least its `width`.
* `toInt_ofInt` — what is written is read back.
* `ofInt_toInt` — what is read is written back without the first bytes that only repeat the sign.
* `shortest_codec` — all of it together, with the least length.

All of it rests on the sign bit: the first byte is above 127 exactly if the unsigned number is at
least half of its range, so `toInt` is the residue of `toNat` that lies around zero.
-/

namespace Octets.Bytes

/-! ## Places -/

/-- The powers in the definitions, as the operator. -/
theorem pow_eq (b n : Nat) : Nat.pow b n = b ^ n := rfl

theorem toNat_append (as bs : Bytes) :
    toNat (as ++ bs) = toNat as * 256 ^ bs.length + toNat bs := by
  induction bs using List.reverseRecOn with
  | nil => simp [toNat]
  | append_singleton bs b ih =>
    have hlast : ∀ cs : Bytes, toNat (cs ++ [b]) = toNat cs * 256 + b.toNat := by
      intro cs
      simp [toNat]
    rw [← List.append_assoc, hlast, hlast, ih, List.length_append, List.length_singleton, pow_succ]
    ring

theorem toNat_cons (b : UInt8) (bs : Bytes) :
    toNat (b :: bs) = b.toNat * 256 ^ bs.length + toNat bs := by
  simpa [toNat] using toNat_append [b] bs

theorem toNat_replicate (k : Nat) : toNat (List.replicate k 0) = 0 := by
  induction k with
  | zero => rfl
  | succ k ih =>
    rw [List.replicate_succ, toNat_cons, ih]
    simp

theorem toNat_lt (bs : Bytes) : toNat bs < 256 ^ bs.length := by
  induction bs with
  | nil => simp [toNat]
  | cons b bs ih =>
    have hb : b.toNat + 1 ≤ 256 := b.toNat_lt
    have hle : (b.toNat + 1) * 256 ^ bs.length ≤ 256 * 256 ^ bs.length :=
      Nat.mul_le_mul_right _ hb
    rw [toNat_cons, List.length_cons, pow_succ']
    rw [Nat.add_mul] at hle
    omega

theorem toNat_ofNat (width n : Nat) : toNat (ofNat width n) = n % 256 ^ width := by
  induction width generalizing n with
  | zero => simp [ofNat, toNat, Nat.mod_one]
  | succ w ih =>
    have hbyte : (UInt8.ofNat (n % 256)).toNat = n % 256 := by
      rw [UInt8.toNat_ofNat']
      omega
    have hlast : toNat [UInt8.ofNat (n % 256)] = n % 256 := by
      simp [toNat, hbyte]
    rw [ofNat, toNat_append, ih, hlast, List.length_singleton, pow_one, pow_succ',
      Nat.mod_mul]
    ring

/-- The digits of a string are the string. -/
theorem ofNat_toNat (bs : Bytes) : ofNat bs.length (toNat bs) = bs := by
  induction bs using List.reverseRecOn with
  | nil => rfl
  | append_singleton bs b ih =>
    have hb : b.toNat < 256 := b.toNat_lt
    have hnum : toNat (bs ++ [b]) = toNat bs * 256 + b.toNat := by
      simp [toNat]
    rw [List.length_append, List.length_singleton, ofNat, hnum]
    rw [show (toNat bs * 256 + b.toNat) / 256 = toNat bs by omega, ih]
    rw [show (toNat bs * 256 + b.toNat) % 256 = b.toNat by omega, UInt8.ofNat_toNat]

/-! ## The sign bit -/

/-- The first byte is above 127 exactly in the upper half of the unsigned numbers. -/
theorem sign_iff (b : UInt8) (bs : Bytes) :
    127 < b.toNat ↔ 256 ^ (b :: bs).length ≤ 2 * toNat (b :: bs) := by
  have hrest := toNat_lt bs
  rw [toNat_cons, List.length_cons, pow_succ']
  constructor
  · intro hb
    have hle : 128 * 256 ^ bs.length ≤ b.toNat * 256 ^ bs.length := Nat.mul_le_mul_right _ hb
    omega
  · intro hle
    by_contra hb
    have hle' : b.toNat * 256 ^ bs.length ≤ 127 * 256 ^ bs.length :=
      Nat.mul_le_mul_right _ (by omega)
    omega

/-- The signed number is the residue of the unsigned one that lies around zero. -/
theorem toInt_eq (bs : Bytes) :
    toInt bs = if 256 ^ bs.length ≤ 2 * toNat bs then (toNat bs : Int) - (256 ^ bs.length : Nat)
      else toNat bs := by
  cases bs with
  | nil => rfl
  | cons b bs =>
    rw [toInt, pow_eq]
    exact if_congr (sign_iff b bs) rfl rfl

theorem fits_iff (n : Nat) (v : Int) :
    fits n v = true ↔ -((256 ^ n : Nat) : Int) ≤ 2 * v ∧ 2 * v < (256 ^ n : Nat) := by
  simp [fits]

/-- The number in a string fits into the length of the string. -/
theorem fits_toInt {bs : Bytes} : fits bs.length (toInt bs) = true := by
  have hlt := toNat_lt bs
  rw [fits_iff, toInt_eq]
  split <;> omega

/-- The signed number and the unsigned one are the same modulo the range. -/
theorem toInt_emod (bs : Bytes) : toInt bs % (256 ^ bs.length : Nat) = toNat bs := by
  have hlt := toNat_lt bs
  rw [toInt_eq]
  split
  · rw [Int.sub_emod_right, Int.emod_eq_of_lt (by omega) (by omega)]
  · rw [Int.emod_eq_of_lt (by omega) (by omega)]

/-! ## Widths -/

theorem bitLength_le_iff (m k : Nat) : bitLength m ≤ k ↔ m < 2 ^ k := by
  unfold bitLength
  by_cases hm : m = 0
  · simp [hm]
  · rw [if_neg hm, ← Nat.log2_lt hm]
    exact Nat.succ_le_iff

/-- The bits beside the sign fit below the sign bit of `n` bytes. -/
theorem width_le_iff (n : Nat) (v : Int) : width v ≤ n + 1 ↔ 2 * magnitude v < 256 ^ (n + 1) := by
  have hhalf : 256 ^ (n + 1) = 2 * 2 ^ (8 * n + 7) := by
    rw [show (256 : Nat) = 2 ^ 8 by norm_num, ← pow_mul, ← pow_succ']
    congr 1
  rw [hhalf, Nat.mul_lt_mul_left (by norm_num), ← bitLength_le_iff, width]
  omega

/-- A number fits into as many bytes as its width, and into no fewer. -/
theorem fits_iff_width_le {n : Nat} (hn : 0 < n) (v : Int) : fits n v = true ↔ width v ≤ n := by
  obtain ⟨m, rfl⟩ : ∃ m, n = m + 1 := ⟨n - 1, by omega⟩
  have heven : 256 ^ (m + 1) = 2 * (128 * 256 ^ m) := by
    rw [pow_succ']
    ring
  rw [fits_iff, width_le_iff, heven]
  unfold magnitude
  split <;> omega

theorem width_pos (v : Int) : 0 < width v := Nat.succ_pos _

/-- There is always room at the width of a number. -/
theorem ofIntAt?_width (v : Int) : ofIntAt? (width v) v = some (ofInt v) := by
  have hfits : fits (width v) v = true := (fits_iff_width_le (width_pos v) v).mpr le_rfl
  simp [ofInt, ofIntAt?, hfits]

theorem ofInt_eq (v : Int) : ofInt v = ofNat (width v) (v % (256 ^ width v : Nat)).toNat := by
  have hroom := ofIntAt?_width v
  unfold ofIntAt? at hroom
  split at hroom
  · exact (Option.some.inj hroom).symm
  · contradiction

theorem length_ofInt (v : Int) : (ofInt v).length = width v := by
  rw [ofInt_eq, length_ofNat]

/-! ## Reading what is written -/

theorem toInt_ofInt (v : Int) : toInt (ofInt v) = v := by
  have hpos : 0 < 256 ^ width v := by positivity
  have hfits := (fits_iff (width v) v).mp ((fits_iff_width_le (width_pos v) v).mpr le_rfl)
  have hlow : 0 ≤ v % (256 ^ width v : Nat) := Int.emod_nonneg _ (by omega)
  have hhigh : v % (256 ^ width v : Nat) < (256 ^ width v : Nat) := Int.emod_lt_of_pos _ (by omega)
  have hnum : toNat (ofInt v) = (v % (256 ^ width v : Nat)).toNat := by
    rw [ofInt_eq, toNat_ofNat, Nat.mod_eq_of_lt (by omega)]
  rw [toInt_eq, hnum, length_ofInt]
  by_cases hv : 0 ≤ v
  · rw [Int.emod_eq_of_lt hv (by omega), if_neg (by omega)]
    omega
  · have hwrap : v % (256 ^ width v : Nat) = v + (256 ^ width v : Nat) := by
      rw [← Int.add_emod_right, Int.emod_eq_of_lt (by omega) (by omega)]
    rw [hwrap, if_pos (by omega)]
    omega

/-- No string of fewer bytes stands for the number. -/
theorem length_ofInt_le {bs : Bytes} (hbs : bs ≠ []) : (ofInt (toInt bs)).length ≤ bs.length := by
  rw [length_ofInt]
  exact (fits_iff_width_le (List.length_pos_iff.mpr hbs) _).mp fits_toInt

/-! ## Writing what is read -/

/-- A first byte is redundant if it only repeats the sign of the byte behind it. -/
def isRedundant (first second : UInt8) : Bool :=
  (first == 0x00 && decide (second < 0x80)) || (first == 0xff && decide (0x80 ≤ second))

/-- A string without its redundant first bytes. -/
def stripSign : Bytes → Bytes
  | a :: b :: rest => if isRedundant a b then stripSign (b :: rest) else a :: b :: rest
  | bs => bs

/-- Is the first byte redundant? -/
def hasRedundant : Bytes → Bool
  | a :: b :: _ => isRedundant a b
  | _ => false

theorem isRedundant_iff (a b : UInt8) :
    isRedundant a b = true ↔
      (a.toNat = 0 ∧ b.toNat < 128) ∨ (a.toNat = 255 ∧ 128 ≤ b.toNat) := by
  simp only [isRedundant, Bool.or_eq_true, Bool.and_eq_true, beq_iff_eq, decide_eq_true_eq,
    ← UInt8.toNat_inj, UInt8.lt_iff_toNat_lt, UInt8.le_iff_toNat_le]
  rfl

/-- A redundant first byte does not change the number. -/
theorem toInt_cons_of_isRedundant {a b : UInt8} (h : isRedundant a b = true) (rest : Bytes) :
    toInt (a :: b :: rest) = toInt (b :: rest) := by
  have hsign := sign_iff b rest
  have hlt := toNat_lt (b :: rest)
  have hpow : 256 ^ (a :: b :: rest).length = 256 * 256 ^ (b :: rest).length := pow_succ' _ _
  rw [toInt_eq, toInt_eq, hpow, toNat_cons]
  rcases (isRedundant_iff a b).mp h with ⟨ha, hb⟩ | ⟨ha, hb⟩
  · rw [ha, Nat.zero_mul, Nat.zero_add, if_neg (by omega), if_neg (by omega)]
  · rw [ha, if_pos (by omega), if_pos (by omega)]
    push_cast
    ring

theorem toInt_stripSign (bs : Bytes) : toInt (stripSign bs) = toInt bs := by
  fun_induction stripSign bs with
  | case1 a b rest h ih => rw [ih, toInt_cons_of_isRedundant h]
  | case2 => rfl
  | case3 => rfl

theorem hasRedundant_stripSign (bs : Bytes) : hasRedundant (stripSign bs) = false := by
  fun_induction stripSign bs with
  | case1 a b rest h ih => exact ih
  | case2 a b rest h => simpa [hasRedundant] using h
  | case3 bs h =>
    unfold hasRedundant
    split
    · exact absurd rfl (h _ _ _)
    · rfl

theorem stripSign_ne_nil {bs : Bytes} (hbs : bs ≠ []) : stripSign bs ≠ [] := by
  fun_induction stripSign bs with
  | case1 a b rest h ih => exact ih (by simp)
  | case2 => exact hbs
  | case3 => exact hbs

/-- A string without a redundant first byte is as long as the width of its number. -/
theorem width_toInt {bs : Bytes} (hbs : bs ≠ []) (h : hasRedundant bs = false) :
    width (toInt bs) = bs.length := by
  have hle : width (toInt bs) ≤ bs.length := by
    rw [← length_ofInt]
    exact length_ofInt_le hbs
  refine le_antisymm hle ?_
  match bs, hbs, h with
  | [b], _, _ => exact width_pos _
  | a :: b :: rest, _, h =>
    -- one byte fewer has room only if the first one repeats the sign of the second
    by_contra hlt
    have hfits : fits (b :: rest).length (toInt (a :: b :: rest)) = true :=
      (fits_iff_width_le (by simp) _).mpr (by simpa using Nat.lt_succ_iff.mp (not_le.mp hlt))
    have hsign := sign_iff b rest
    have hfirst := sign_iff a (b :: rest)
    have hlast := toNat_lt (b :: rest)
    have ha : a.toNat < 256 := a.toNat_lt
    have hpow : 256 ^ (a :: b :: rest).length = 256 * 256 ^ (b :: rest).length := pow_succ' _ _
    have hnot : ¬ isRedundant a b = true := by simpa [hasRedundant] using h
    rw [isRedundant_iff] at hnot
    rw [fits_iff, toInt_eq, hpow] at hfits
    rw [hpow] at hfirst
    rw [toNat_cons] at hfits hfirst
    by_cases hneg : 127 < a.toNat
    · rw [if_pos (hfirst.mp hneg)] at hfits
      have hmul : a.toNat ≤ 254 →
          a.toNat * 256 ^ (b :: rest).length ≤ 254 * 256 ^ (b :: rest).length :=
        fun hle => Nat.mul_le_mul_right _ hle
      have ha255 : a.toNat = 255 := by omega
      rw [ha255] at hfits
      omega
    · rw [if_neg (fun hle => hneg (hfirst.mpr hle))] at hfits
      have hmul : 1 ≤ a.toNat → 1 * 256 ^ (b :: rest).length ≤ a.toNat * 256 ^ (b :: rest).length :=
        fun hle => Nat.mul_le_mul_right _ hle
      have ha0 : a.toNat = 0 := by omega
      rw [ha0] at hfits
      omega

theorem ofInt_toInt_of_not_hasRedundant {bs : Bytes} (hbs : bs ≠ [])
    (h : hasRedundant bs = false) : ofInt (toInt bs) = bs := by
  rw [ofInt_eq, width_toInt hbs h, toInt_emod, Int.toNat_natCast, ofNat_toNat]

theorem ofInt_toInt {bs : Bytes} (hbs : bs ≠ []) : ofInt (toInt bs) = stripSign bs := by
  rw [← toInt_stripSign bs]
  exact ofInt_toInt_of_not_hasRedundant (stripSign_ne_nil hbs) (hasRedundant_stripSign bs)

theorem stripSign_eq_iff (bs : Bytes) : stripSign bs = bs ↔ hasRedundant bs = false := by
  constructor
  · intro h
    rw [← h]
    exact hasRedundant_stripSign bs
  · intro h
    match bs, h with
    | [], _ => rfl
    | [_], _ => rfl
    | a :: b :: rest, h =>
      rw [stripSign, if_neg (by simpa [hasRedundant] using h)]

/-! ## The codec -/

/-- **The shortest form of a number.** There is room for the number at its width; its form is read
back as the number, and no shorter string but the empty one stands for it. Read and written back,
a string loses its redundant first bytes and nothing else. -/
theorem shortest_codec :
    (∀ v : Int,
      ofIntAt? (width v) v = some (ofInt v) ∧ toInt (ofInt v) = v ∧
        ∀ bs : Bytes, bs ≠ [] → toInt bs = v → (ofInt v).length ≤ bs.length) ∧
    ∀ bs : Bytes, bs ≠ [] →
      ofInt (toInt bs) = stripSign bs ∧ (ofInt (toInt bs) = bs ↔ hasRedundant bs = false) := by
  refine ⟨fun v => ⟨ofIntAt?_width v, toInt_ofInt v, ?_⟩, fun bs hbs => ?_⟩
  · intro bs hbs hv
    rw [← hv]
    exact length_ofInt_le hbs
  · rw [ofInt_toInt hbs]
    exact ⟨rfl, stripSign_eq_iff bs⟩

/-- Minus 129 takes two bytes; a third one in front of them is taken off again. -/
theorem shortest_codec_padded :
    toInt [0xff, 0xff, 0x7f] = -129 ∧ ofInt (toInt [0xff, 0xff, 0x7f]) = [0xff, 0x7f] :=
  ⟨by decide, ((shortest_codec.2 [0xff, 0xff, 0x7f] (by decide)).1).trans (by decide)⟩

end Octets.Bytes
