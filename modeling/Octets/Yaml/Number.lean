import Octets.Decimal.Numeral
import Octets.Fault
import Octets.Text.Lower

/-!
# Numbers

The number that a text stands for if it is said to be one, whatever its form. Underscores count for
nothing, and one sign in front counts for the whole. Behind it a mark or a leading zero gives the
base of an integer, and colons divide the digits of base 60. Each part is read as a numeral, which
may have blanks and a sign of its own.
-/

namespace Octets.Yaml.Number

/-- The text without grouping marks. -/
def ungrouped (s : List Char) : List Char := s.filter (· != '_')

/-- Takes one sign from a text, which must not be empty. -/
def signed (s : List Char) : Except Fault (Bool × List Char) :=
  if s.isEmpty then .error .noCharacter else .ok (Decimal.Numeral.sign s)

/-- The parts of a text between colons. -/
def colonParts : List Char → List (List Char)
  | [] => [[]]
  | c :: rest =>
    match colonParts rest with
    | [] => [[c]]
    | part :: more => if c == ':' then [] :: part :: more else (c :: part) :: more

/-- Why a text is no number, as a fault. -/
def fault : Decimal.NumeralFlaw → Fault
  | .excess cause => .badValue (.excess cause)
  | flaw => .badValue (.refused flaw.message)

/-! ## Integers -/

/-- Reads an integer in a base. -/
def numeral (base : Nat) (s : List Char) : Except Fault Int :=
  (Decimal.Numeral.integer base s).mapError fault

/-- Parts in base 60 as one integer. -/
def inBaseSixty (parts : List Int) : Int := parts.foldl (fun n part => n * 60 + part) 0

/-- The integer that a text without a sign stands for. -/
def sizeOf (s : List Char) : Except Fault Int :=
  match s with
  | [] => .error .noCharacter
  | ['0'] => .ok 0
  | '0' :: 'b' :: digits => numeral 2 digits
  | '0' :: 'x' :: digits => numeral 16 digits
  | '0' :: digits => numeral 8 ('0' :: digits)
  | s =>
    if s.contains ':' then ((colonParts s).mapM (numeral 10)).map inBaseSixty else numeral 10 s

/-- The integer that a text stands for. -/
def int (s : List Char) : Except Fault Int := do
  let (negative, s) ← signed (ungrouped s)
  let size ← sizeOf s
  return if negative then -size else size

/-! ## Floating-point numbers -/

/-- Reads a floating-point number. -/
def decimal (s : List Char) : Except Fault Float := (Decimal.Numeral.float s).mapError fault

/-- A power of sixty as a floating-point number; a great one is none. -/
def powerOfSixty (k : Nat) : Except Fault Float :=
  let x := Decimal.nearest (Nat.pow 60 k) 0
  if x.isInf then .error (.overflow .float) else .ok x

/-- Adds the parts in base 60 to a number, the last one first; `k` is the power at the first of
them. -/
def addSixties (k : Nat) (sum : Float) : List Float → Except Fault Float
  | [] => .ok sum
  | part :: rest => do
    let power ← powerOfSixty k
    addSixties (k + 1) (sum + part * power) rest

/-- The floating-point number that a text without a sign stands for. -/
def floatSizeOf (s : List Char) : Except Fault Float :=
  if s == ".inf".toList then .ok (1.0 / 0.0)
  else if s == ".nan".toList then .ok (0.0 / 0.0)
  else if s.contains ':' then do
    let parts ← (colonParts s).mapM decimal
    addSixties 0 0 parts.reverse
  else decimal s

/-- The floating-point number that a text stands for. -/
def float (s : List Char) : Except Fault Float := do
  let (negative, s) ← signed (Text.lower (ungrouped s))
  let size ← floatSizeOf s
  return if negative then -size else size

/-- Is the text, but for a sign, the word for NaN? Wherever it stands, it is one and the same
value. -/
def isNanWord (s : List Char) : Bool :=
  (Decimal.Numeral.sign (Text.lower (ungrouped s))).2 == ".nan".toList

end Octets.Yaml.Number
