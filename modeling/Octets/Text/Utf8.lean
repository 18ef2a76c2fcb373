import Octets.Text.Units

/-!
# UTF-8

`encode` writes the characters of a text as bytes, and `ofString` refuses a text with half of a
pair, which has no bytes. `decode` reads bytes and refuses anything that is not the encoding of a
text: the refusal says which bytes do not fit and in which of three ways.

A lead byte fixes how many bytes follow and, for four of them, a narrower range for the second byte:
it keeps out forms longer than needed, the surrogates, and numbers above U+10FFFF.
-/

namespace Octets.Text.Utf8

/-! ## Writing -/

/-- The bytes of one character. -/
def encodeChar (c : Char) : Bytes :=
  let n := c.toNat
  let tail (k : Nat) : UInt8 := UInt8.ofNat (0x80 + n / Nat.pow 64 k % 64)
  if n < 0x80 then [UInt8.ofNat n]
  else if n < 0x800 then [UInt8.ofNat (0xc0 + n / 64), tail 0]
  else if n < 0x10000 then [UInt8.ofNat (0xe0 + n / 4096), tail 1, tail 0]
  else [UInt8.ofNat (0xf0 + n / 262144), tail 2, tail 1, tail 0]

/-- The bytes of a text. -/
def encode (s : List Char) : Bytes := s.flatMap encodeChar

/-- The first halves of pairs in a row: the number of one, and the indices of the first and the
last. -/
structure Halves where
  number : Nat
  first : Nat
  last : Nat
  deriving DecidableEq, Repr

/-- The text of a refusal: one half is named, several are given by their indices. -/
def Halves.message (h : Halves) : String :=
  let place :=
    if h.first = h.last then
      "character '" ++ String.ofList (Units.escape h.number) ++ "' in position " ++ toString h.first
    else "characters in position " ++ toString h.first ++ "-" ++ toString h.last
  "'utf-8' codec can't encode " ++ place ++ ": surrogates not allowed"

/-- The halves of pairs in a row that start with the first one `refused` holds of. -/
def halvesFrom? (refused : Char → Bool) (s : List Char) : Option Halves :=
  let first := (s.takeWhile fun c => !refused c).length
  match (s.dropWhile fun c => !refused c).takeWhile Units.isHeld with
  | [] => none
  | c :: more => some ⟨Units.number c, first, first + more.length⟩

/-- The first halves of pairs in a text. -/
def halves? (s : List Char) : Option Halves := halvesFrom? Units.isHeld s

/-- The bytes of a string. -/
def ofString (s : String) : Except Halves Bytes :=
  match halves? s.toList with
  | some h => .error h
  | none => .ok (encode s.toList)

/-! ## Reading -/

/-- How a byte string fails to be the encoding of a text. -/
inductive Flaw where
  /-- The byte starts no character. -/
  | start
  /-- The byte behind the faulty ones cannot stand there. -/
  | continuation
  /-- The bytes end in the middle of a character. -/
  | truncated
  deriving DecidableEq, Repr

/-- The faulty bytes are those at the indices `first` to `last`; `lead` is the byte at `first`. -/
structure Fault where
  flaw : Flaw
  lead : UInt8
  first : Nat
  last : Nat
  deriving DecidableEq, Repr

namespace Flaw

def message : Flaw → String
  | start => "invalid start byte"
  | continuation => "invalid continuation byte"
  | truncated => "unexpected end of data"

end Flaw

/-- The text of a refusal: one faulty byte is named, several are given by their indices. -/
def Fault.message (fault : Fault) : String :=
  let place :=
    if fault.first = fault.last then
      "byte 0x" ++ String.ofList (Hex.encodeByte fault.lead) ++ " in position " ++
        toString fault.first
    else "bytes in position " ++ toString fault.first ++ "-" ++ toString fault.last
  "'utf-8' codec can't decode " ++ place ++ ": " ++ fault.flaw.message

/-- What a lead byte asks for: how many bytes follow, and the least and the greatest second byte. -/
def leadRule (b : Nat) : Option (Nat × Nat × Nat) :=
  if b < 0x80 then some (0, 0, 0)
  else if 0xc2 ≤ b && b ≤ 0xdf then some (1, 0x80, 0xbf)
  else if b == 0xe0 then some (2, 0xa0, 0xbf)
  else if b == 0xed then some (2, 0x80, 0x9f)
  else if 0xe1 ≤ b && b ≤ 0xef then some (2, 0x80, 0xbf)
  else if b == 0xf0 then some (3, 0x90, 0xbf)
  else if 0xf1 ≤ b && b ≤ 0xf3 then some (3, 0x80, 0xbf)
  else if b == 0xf4 then some (3, 0x80, 0x8f)
  else none

/-- Takes the `count` bytes that follow a lead byte, the first of them between `lo` and `hi`. Gives
the number of the character and the bytes left, or how many bytes were taken before the text ended
or a byte did not fit. -/
def follow : Nat → Nat → Nat → Nat → Nat → Bytes → Except (Flaw × Nat) (Nat × Bytes)
  | 0, _, _, _, n, bs => .ok (n, bs)
  | _ + 1, _, _, taken, _, [] => .error (.truncated, taken)
  | count + 1, lo, hi, taken, n, b :: bs =>
    if lo ≤ b.toNat ∧ b.toNat ≤ hi then
      follow count 0x80 0xbf (taken + 1) (n * 64 + (b.toNat - 0x80)) bs
    else .error (.continuation, taken)

theorem length_follow {count lo hi taken n : Nat} {bs rest : Bytes} {m : Nat}
    (h : follow count lo hi taken n bs = .ok (m, rest)) : rest.length ≤ bs.length := by
  fun_induction follow count lo hi taken n bs with
  | case1 lo hi taken n bs => cases h; exact Nat.le_refl _
  | case2 => cases h
  | case3 count lo hi taken n b bs _ ih => exact Nat.le_succ_of_le (ih h)
  | case4 => cases h

/-- The bits a lead byte gives to the number of its character. -/
def leadBits (count b : Nat) : Nat :=
  match count with
  | 0 => b
  | 1 => b - 0xc0
  | 2 => b - 0xe0
  | _ => b - 0xf0

/-- The text the bytes encode, or the first bytes that do not fit; `pos` is the index of the first
byte. -/
def decodeFrom (pos : Nat) (bs : Bytes) : Except Fault (List Char) :=
  match bs with
  | [] => .ok []
  | b :: rest =>
    match leadRule b.toNat with
    | none => .error ⟨.start, b, pos, pos⟩
    | some (count, lo, hi) =>
      match _h : follow count lo hi 0 (leadBits count b.toNat) rest with
      | .error (flaw, taken) => .error ⟨flaw, b, pos, pos + taken⟩
      | .ok (n, rest') => (decodeFrom (pos + 1 + count) rest').map (Char.ofNat n :: ·)
termination_by bs.length
decreasing_by
  have := length_follow _h
  simp only [List.length_cons]
  omega

/-- The text the bytes encode, or the first bytes that do not fit. -/
def decode (bs : Bytes) : Except Fault (List Char) := decodeFrom 0 bs

end Octets.Text.Utf8
