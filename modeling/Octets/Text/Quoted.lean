import Octets.Text.Hex
import Octets.Text.Printable
import Octets.Text.Units

/-!
# Quoted text

How a text or a byte string is shown inside a message: between quotes, with escapes for what does
not show itself.

* The quote is a single one, unless the text holds a single quote and no double one.
* The backslash and the quote in use are escaped; so are tab, line feed and carriage return, by
  letter.
* Any other character that is not printable is shown by its number: `\x`, `\u` or `\U` and two, four
  or eight digits, whichever is the least that fits. In a byte string every byte outside the
  printable ASCII characters is shown by two digits.
-/

namespace Octets.Text.Quoted

/-- The quote for a text: double if it holds a single quote and no double one. -/
def quoteFor (s : List Char) : Char :=
  if s.contains '\'' && !s.contains '"' then '"' else '\''

/-- A character by its number, in the least of the three forms that fits. -/
def byNumber (n : Nat) : List Char :=
  if n ≤ 0xff then '\\' :: 'x' :: Units.digits 2 n
  else if n ≤ 0xffff then Units.escape n
  else '\\' :: 'U' :: Units.digits 8 n

/-- One character between quotes of the kind `quote`. -/
def escapeChar (quote c : Char) : List Char :=
  if c = '\\' ∨ c = quote then ['\\', c]
  else if c = '\t' then ['\\', 't']
  else if c = '\n' then ['\\', 'n']
  else if c = '\r' then ['\\', 'r']
  else if isPrintable c then [c]
  else byNumber (Units.number c)

/-- A text between quotes. -/
def text (s : List Char) : List Char :=
  let quote := quoteFor s
  quote :: (s.flatMap (escapeChar quote) ++ [quote])

/-- A text between quotes, as a string. -/
def string (s : String) : String := String.ofList (text s.toList)

/-- One byte between quotes of the kind `quote`, read as a character of the same number. Where
`both` is set a single quote is escaped even between double ones. -/
def escapeByte (both : Bool) (quote : Char) (b : UInt8) : List Char :=
  let c := Char.ofNat b.toNat
  if c = '\\' ∨ c = quote ∨ (both ∧ c = '\'') then ['\\', c]
  else if c = '\t' then ['\\', 't']
  else if c = '\n' then ['\\', 'n']
  else if c = '\r' then ['\\', 'r']
  else if 0x20 ≤ b.toNat ∧ b.toNat < 0x7f then [c]
  else byNumber b.toNat

/-- A byte string between quotes, behind a `b`. -/
def bytes (both : Bool) (bs : Bytes) : String :=
  let quote := quoteFor (bs.map fun b => Char.ofNat b.toNat)
  String.ofList ('b' :: quote :: (bs.flatMap (escapeByte both quote) ++ [quote]))

end Octets.Text.Quoted
