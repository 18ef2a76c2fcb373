import Octets.Text.Utf8

/-!
# UTF-8 read back

Every text is read from its bytes as it was. The lead byte of a character says how many bytes
follow, and each of those stands in the range that the lead byte asks for.

* `follow_tail` — a byte that follows adds six bits to the number of its character.
* `decodeFrom_encodeChar` — the bytes of a character are read as this character.
* `decode_encode` — the bytes of a text are read as this text.
-/

namespace Octets.Text.Utf8

/-! ## Lead bytes -/

/-- The lead byte of a character, by the bits that it gives to the number. -/
theorem leadRule_two : ∀ m < 32, 2 ≤ m → leadRule (0xc0 + m) = some (1, 0x80, 0xbf) := by
  decide

theorem leadRule_three : ∀ m < 16,
    leadRule (0xe0 + m)
      = some (2, if m = 0 then 0xa0 else 0x80, if m = 13 then 0x9f else 0xbf) := by
  decide

theorem leadRule_four : ∀ m < 5,
    leadRule (0xf0 + m) = some (3, if m = 0 then 0x90 else 0x80, if m = 4 then 0x8f else 0xbf) := by
  decide

/-- A character is read from its lead byte and the bytes that follow. -/
theorem decodeFrom_cons {b : UInt8} {bs rest : Bytes} {count lo hi n : Nat} (pos : Nat)
    (hrule : leadRule b.toNat = some (count, lo, hi))
    (hfollow : follow count lo hi 0 (leadBits count b.toNat) bs = .ok (n, rest)) :
    decodeFrom pos (b :: bs) = (decodeFrom (pos + 1 + count) rest).map (Char.ofNat n :: ·) := by
  rw [decodeFrom, hrule]
  dsimp only
  split
  · rename_i herror
    rw [hfollow] at herror
    cases herror
  · rename_i hok
    rw [hfollow, Except.ok.injEq, Prod.mk.injEq] at hok
    obtain ⟨rfl, rfl⟩ := hok
    rfl

/-! ## Bytes that follow -/

theorem toNat_byte {n : Nat} (h : n < 256) : (UInt8.ofNat n).toNat = n := by
  simp [Nat.mod_eq_of_lt h]

/-- A byte that follows adds six bits to the number of its character. -/
theorem follow_tail {count lo hi taken n m : Nat} (hm : m < 64) (hlo : lo ≤ 0x80 + m)
    (hhi : 0x80 + m ≤ hi) (bs : Bytes) :
    follow (count + 1) lo hi taken n (UInt8.ofNat (0x80 + m) :: bs)
      = follow count 0x80 0xbf (taken + 1) (n * 64 + m) bs := by
  have hbyte : (UInt8.ofNat (0x80 + m)).toNat = 0x80 + m := toNat_byte (by omega)
  rw [follow, hbyte, if_pos ⟨hlo, hhi⟩, Nat.add_sub_cancel_left]

/-! ## Characters and texts -/

/-- The number of a character is none of a half of a pair. -/
theorem toNat_ranges (c : Char) : c.toNat < 0xd800 ∨ 0xdfff < c.toNat ∧ c.toNat < 0x110000 :=
  c.valid

/-- **The bytes of a character are read as this character.** -/
theorem decodeFrom_encodeChar (pos : Nat) (c : Char) (bs : Bytes) :
    ∃ pos', decodeFrom pos (encodeChar c ++ bs) = (decodeFrom pos' bs).map (c :: ·) := by
  have hrange := toNat_ranges c
  have hchar : Char.ofNat c.toNat = c := Char.ofNat_toNat c
  unfold encodeChar
  simp only [Nat.pow_eq, Nat.pow_zero, Nat.pow_one, Nat.reducePow, Nat.div_one]
  generalize c.toNat = n at hrange hchar
  subst hchar
  by_cases h1 : n < 0x80
  · have hlead : (UInt8.ofNat n).toNat = n := toNat_byte (by omega)
    have hrule : leadRule n = some (0, 0, 0) := by simp [leadRule, h1]
    rw [if_pos h1, List.singleton_append]
    refine ⟨_, decodeFrom_cons pos (by rw [hlead, hrule]) ?_⟩
    rw [hlead]
    rfl
  rw [if_neg h1]
  by_cases h2 : n < 0x800
  · have hlead : (UInt8.ofNat (0xc0 + n / 64)).toNat = 0xc0 + n / 64 := toNat_byte (by omega)
    have hbits : leadBits 1 (0xc0 + n / 64) = n / 64 := Nat.add_sub_cancel_left _ _
    have hnumber : n / 64 * 64 + n % 64 = n := by omega
    rw [if_pos h2, List.cons_append, List.cons_append, List.nil_append]
    refine ⟨_, decodeFrom_cons pos (by rw [hlead, leadRule_two _ (by omega) (by omega)]) ?_⟩
    rw [hlead, hbits, follow_tail (by omega) (by omega) (by omega), hnumber, follow]
  rw [if_neg h2]
  by_cases h3 : n < 0x10000
  · have hlead : (UInt8.ofNat (0xe0 + n / 4096)).toNat = 0xe0 + n / 4096 := toNat_byte (by omega)
    have hbits : leadBits 2 (0xe0 + n / 4096) = n / 4096 := Nat.add_sub_cancel_left _ _
    have hnumber : (n / 4096 * 64 + n / 64 % 64) * 64 + n % 64 = n := by omega
    rw [if_pos h3, List.cons_append, List.cons_append, List.cons_append, List.nil_append]
    refine ⟨_, decodeFrom_cons pos (by rw [hlead, leadRule_three _ (by omega)]) ?_⟩
    rw [hlead, hbits, follow_tail (by omega) (by split <;> omega) (by split <;> omega),
      follow_tail (by omega) (by omega) (by omega), hnumber, follow]
  · have hlead : (UInt8.ofNat (0xf0 + n / 262144)).toNat = 0xf0 + n / 262144 :=
      toNat_byte (by omega)
    have hbits : leadBits 3 (0xf0 + n / 262144) = n / 262144 := Nat.add_sub_cancel_left _ _
    have hnumber : ((n / 262144 * 64 + n / 4096 % 64) * 64 + n / 64 % 64) * 64 + n % 64
        = n := by omega
    rw [if_neg h3, List.cons_append, List.cons_append, List.cons_append, List.cons_append,
      List.nil_append]
    refine ⟨_, decodeFrom_cons pos (by rw [hlead, leadRule_four _ (by omega)]) ?_⟩
    rw [hlead, hbits, follow_tail (by omega) (by split <;> omega) (by split <;> omega),
      follow_tail (by omega) (by omega) (by omega),
      follow_tail (by omega) (by omega) (by omega), hnumber,
      follow]

/-- **The bytes of a text are read as this text.** -/
theorem decode_encode (s : List Char) : decode (encode s) = .ok s := by
  have hfrom : ∀ pos, decodeFrom pos (encode s) = .ok s := by
    induction s with
    | nil => intro pos; rw [encode, List.flatMap_nil, decodeFrom]
    | cons c s ih =>
      intro pos
      obtain ⟨pos', hc⟩ := decodeFrom_encodeChar pos c (encode s)
      have hcons : encode (c :: s) = encodeChar c ++ encode s := rfl
      rw [hcons, hc, ih]
      rfl
  exact hfrom 0

/-- The bytes of a string are those of its characters. -/
theorem eq_encode_of_ofString {s : String} {bs : Bytes} (h : ofString s = .ok bs) :
    bs = encode s.toList := by
  unfold ofString at h
  split at h
  · cases h
  · exact (Except.ok.inj h).symm

end Octets.Text.Utf8
