import Octets.Text.Hex

/-!
# Units of sixteen bits

Characters beyond U+FFFF as pairs of units: a high half and a low half. Half of a pair alone is no
character, but documents and the names of files can hold one, and messages name it by its number. In
a text it is held as one of 2048 characters for private use, U+F5800 to U+F5FFF. A text that uses
one of these for itself is therefore taken to hold half of a pair, so it has no encoding here.
-/

namespace Octets.Text.Units

def isHigh (n : Nat) : Bool := 0xd800 ≤ n && n < 0xdc00

def isLow (n : Nat) : Bool := 0xdc00 ≤ n && n < 0xe000

/-- Is it the number of half of a pair? -/
def isHalf (n : Nat) : Bool := isHigh n || isLow n

/-- How far behind the number of half of a pair the character stands that holds it. -/
def distance : Nat := 0xe8000

/-- The character for a number that stands alone. -/
def ofNumber (n : Nat) : Char := Char.ofNat (if isHalf n then n + distance else n)

/-- Does a character hold half of a pair? -/
def isHeld (c : Char) : Bool := isHalf (c.toNat - distance)

/-- The number that a character stands for. -/
def number (c : Char) : Nat := if isHeld c then c.toNat - distance else c.toNat

/-- The character of a pair. -/
def ofPair (high low : Nat) : Char :=
  Char.ofNat (0x10000 + (high - 0xd800) * 0x400 + (low - 0xdc00))

/-- The last `count` digits of a number in base sixteen. -/
def digits : Nat → Nat → List Char
  | 0, _ => []
  | count + 1, n => digits count (n / 16) ++ [Hex.digit (n % 16)]

/-- A unit as an escape of four digits. -/
def escape (n : Nat) : List Char := '\\' :: 'u' :: digits 4 n

/-- A text in which half of a pair is shown by its number. -/
def shown (s : List Char) : List Char :=
  s.flatMap fun c => if isHeld c then escape (number c) else [c]

end Octets.Text.Units
