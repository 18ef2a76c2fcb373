import Octets.Decimal.Limit
import Octets.Decimal.Reading
import Octets.Text.Blank
import Octets.Text.Digit
import Octets.Text.Quoted

/-!
# Numerals

Numbers as people write them: with blanks around them, with a sign, and in the decimal digits of any
script. `Numeral.integer` reads an integer in a base, behind the mark of that base if it has one;
`Numeral.float` reads a floating-point number, which may also be a word for infinity or for NaN.

A refusal quotes the text. Of an integer with too many digits in base ten only their number is
given.
-/

namespace Octets.Decimal

/-- Why a text is no number. -/
inductive NumeralFlaw where
  | integer (base : Nat) (text : List Char)
  | float (text : List Char)
  | excess (cause : Excess)
  deriving DecidableEq, Repr

namespace NumeralFlaw

/-- How much of a quoted text is given, if it is no integer. -/
def quoteLength : Nat := 200

def message : NumeralFlaw → String
  | integer base text =>
    "invalid literal for int() with base " ++ toString base ++ ": " ++
      String.ofList ((Text.Quoted.string (String.ofList text)).toList.take quoteLength)
  | float text => "could not convert string to float: " ++ Text.Quoted.string (String.ofList text)
  | excess cause => cause.message

end NumeralFlaw

namespace Numeral

/-- A character in ASCII: a digit of any script by its value, a blank as a space, and any other as a
question mark, which is in no number. -/
def toAscii (c : Char) : Char :=
  if c.toNat < 0x80 then c
  else if Text.isBlank c then ' '
  else
    match Text.digitValue? c with
    | some d => Char.ofNat (0x30 + d)
    | none => '?'

/-- Is the character a digit in the base? -/
def isDigitIn (base : Nat) (c : Char) : Bool := c.isAlphanum && digitValue c < base

/-- Takes one sign: whether it is a minus, and what stands behind it. -/
def sign (s : List Char) : Bool × List Char :=
  match s with
  | '-' :: rest => (true, rest)
  | '+' :: rest => (false, rest)
  | _ => (false, s)

/-- The letter in the mark of a base. -/
def baseLetter? : Nat → Option Char
  | 2 => some 'b'
  | 8 => some 'o'
  | 16 => some 'x'
  | _ => none

/-- The text behind the mark of a base, if it stands there. -/
def dropMark (base : Nat) (s : List Char) : List Char :=
  match s with
  | '0' :: letter :: rest => if baseLetter? base = some letter.toLower then rest else s
  | _ => s

/-- Reads an integer in a base. -/
def integer (base : Nat) (text : List Char) : Except NumeralFlaw Int :=
  let (negative, body) := sign ((text.map toAscii).dropWhile Text.isAsciiBlank)
  let body := dropMark base body
  let digits := body.takeWhile (isDigitIn base)
  if base = 10 ∧ maxDigits < digits.length then .error (.excess (.read digits.length))
  else if digits.isEmpty || !(body.dropWhile (isDigitIn base)).all Text.isAsciiBlank then
    .error (.integer base text)
  else
    let size : Int := natural base digits
    .ok (if negative then -size else size)

/-- The value of the exponent at the end of a number, if what stands there is none or nothing. -/
def exponent? (s : List Char) : Option Int :=
  match s with
  | [] => some 0
  | e :: rest =>
    let (negative, digits) := sign rest
    if e.toLower = 'e' ∧ digits ≠ [] ∧ digits.all isDigit then
      let size : Int := natural 10 digits
      some (if negative then -size else size)
    else none

/-- The text without the ASCII blanks at its two ends. -/
def trimmed (s : List Char) : List Char :=
  ((s.dropWhile Text.isAsciiBlank).reverse.dropWhile Text.isAsciiBlank).reverse

/-- The digits behind a point, if there is one, and what follows. -/
def fraction (s : List Char) : List Char × List Char :=
  match s with
  | '.' :: rest => (rest.takeWhile isDigit, rest.dropWhile isDigit)
  | _ => ([], s)

/-- The words for infinity and for NaN. -/
def words : List (String × Float) :=
  [("inf", 1.0 / 0.0), ("infinity", 1.0 / 0.0), ("nan", 0.0 / 0.0)]

/-- Reads a floating-point number. -/
def float (text : List Char) : Except NumeralFlaw Float :=
  let (negative, body) := sign (trimmed (text.map toAscii))
  match words.find? fun w => w.1.toList == body.map Char.toLower with
  | some (_, x) => .ok (if negative then -x else x)
  | none =>
    let whole := body.takeWhile isDigit
    let (part, rest) := fraction (body.dropWhile isDigit)
    match exponent? rest with
    | some e =>
      if (whole ++ part).isEmpty then .error (.float text)
      else .ok (Decimal.float negative whole part e)
    | none => .error (.float text)

end Numeral

end Octets.Decimal
