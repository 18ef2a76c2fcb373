import Octets.Bytes

/-!
# Base64

Reading bytes from base64 text in the lenient way: characters outside the alphabet are skipped, and
the text ends at padding that completes a group of four. A text that ends inside a group is refused.
-/

namespace Octets.Text.Base64

/-- The value of a character of the alphabet. -/
def value? (c : Char) : Option Nat :=
  let n := c.toNat
  if 0x41 ≤ n && n ≤ 0x5a then some (n - 0x41)
  else if 0x61 ≤ n && n ≤ 0x7a then some (n - 0x61 + 26)
  else if 0x30 ≤ n && n ≤ 0x39 then some (n - 0x30 + 52)
  else if c = '+' then some 62
  else if c = '/' then some 63
  else none

/-- Reads on inside a group of which `taken` characters have been read; `left` holds their bits that
are not yet part of a byte, and `pads` counts the padding since the last of them. -/
def decodeFrom (taken left pads : Nat) : List Char → Option Bytes
  | [] => if taken = 0 then some [] else none
  | c :: rest =>
    if c = '=' then
      if 2 ≤ taken ∧ 4 ≤ taken + (pads + 1) then some []
      else decodeFrom taken left (if 2 ≤ taken then pads + 1 else pads) rest
    else
      match value? c, taken with
      | none, _ => decodeFrom taken left pads rest
      | some v, 0 => decodeFrom 1 v 0 rest
      | some v, 1 => (decodeFrom 2 (v % 16) 0 rest).map (UInt8.ofNat (left * 4 + v / 16) :: ·)
      | some v, 2 => (decodeFrom 3 (v % 4) 0 rest).map (UInt8.ofNat (left * 16 + v / 4) :: ·)
      | some v, _ => (decodeFrom 0 0 0 rest).map (UInt8.ofNat (left * 64 + v) :: ·)

/-- The bytes that a base64 text stands for. -/
def decode (s : List Char) : Option Bytes := decodeFrom 0 0 0 s

end Octets.Text.Base64
