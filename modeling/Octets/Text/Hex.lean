import Octets.Bytes
import Octets.Text.Blank

/-!
# Hexadecimal text

Bytes written as pairs of hexadecimal digits, and read back.

* `encode` writes two lower-case digits a byte, with nothing between them.
* `decode` reads pairs of digits in either case; ASCII blanks may stand before, between and after
  the pairs, but never inside one. A text that is not of this form is refused with the index of the
  first character that does not fit. A character beyond ASCII is found before anything else is
  looked at.

Both are structural over the list they read.
-/

namespace Octets.Text.Hex

/-- The lower-case digit of a value below 16. -/
def digit (n : Nat) : Char := if n < 10 then Char.ofNat (0x30 + n) else Char.ofNat (0x61 + n - 10)

/-- The value of a digit in either case. -/
def value? (c : Char) : Option Nat :=
  let n := c.toNat
  if 0x30 ≤ n && n ≤ 0x39 then some (n - 0x30)
  else if 0x61 ≤ n && n ≤ 0x66 then some (n - 0x61 + 10)
  else if 0x41 ≤ n && n ≤ 0x46 then some (n - 0x41 + 10)
  else none

/-- A digit reads back as its value. -/
theorem value?_digit {n : Nat} (h : n < 16) : value? (digit n) = some n := by
  have all : ∀ m ∈ List.range 16, value? (digit m) = some m := by decide
  exact all n (List.mem_range.mpr h)

/-! ## Writing -/

/-- Two digits, the high half first. -/
def encodeByte (b : UInt8) : List Char := [digit (b.toNat / 16), digit (b.toNat % 16)]

/-- Two lower-case digits a byte. -/
def encode (bs : Bytes) : List Char := bs.flatMap encodeByte

/-- The digits as a string. -/
def encodeString (bs : Bytes) : String := String.ofList (encode bs)

/-! ## Reading -/

/-- Reads pairs of digits; `pos` is the index of the first character of the list. A pair that ends
with the text is refused at the index behind it. -/
def pairs (pos : Nat) : List Char → Except Nat Bytes
  | [] => .ok []
  | [c] =>
    if isAsciiBlank c then .ok []
    else if (value? c).isSome then .error (pos + 1) else .error pos
  | c :: d :: rest =>
    if isAsciiBlank c then pairs (pos + 1) (d :: rest)
    else
      match value? c, value? d with
      | none, _ => .error pos
      | some _, none => .error (pos + 1)
      | some hi, some lo => (pairs (pos + 2) rest).map (UInt8.ofNat (16 * hi + lo) :: ·)

/-- Is the character outside ASCII? -/
def isWide (c : Char) : Bool := 0x80 ≤ c.toNat

/-- The bytes a text of digit pairs stands for, or the index of the first character that does not
fit. -/
def decode (s : List Char) : Except Nat Bytes :=
  match s.findIdx? isWide with
  | some i => .error i
  | none => pairs 0 s

/-- The text without one leading `0x` or `0X`. -/
def dropMark : List Char → List Char
  | '0' :: x :: rest => if x = 'x' ∨ x = 'X' then rest else '0' :: x :: rest
  | s => s

/-- Reads a text of digit pairs that may stand between blanks and behind the mark `0x`. Indices
count from behind the mark. -/
def read (s : List Char) : Except Nat Bytes := decode (dropMark (strip s))

end Octets.Text.Hex
