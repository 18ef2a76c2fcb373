import Octets.Decimal.Layout

/-!
# The limit on digits

An integer of more than `maxDigits` digits in base ten is neither read nor written, whatever its
value is good for otherwise. `Excess` says which of the two was refused, and `isWritable` decides it
for writing.
-/

namespace Octets.Decimal

/-- The most digits that an integer may have in base ten to be read or written. -/
def maxDigits : Nat := 4300

/-- Has the integer few enough digits to be written? -/
def isWritable (n : Int) : Bool := n.natAbs < Nat.pow 10 maxDigits

/-- An integer with too many digits. -/
inductive Excess where
  /-- A text of so many digits that is read. -/
  | read (digits : Nat)
  /-- An integer that is written. -/
  | written
  deriving DecidableEq, Repr

namespace Excess

/-- What follows the name of the limit when a text is read. -/
def count : Excess → String
  | read digits => ": value has " ++ toString digits ++ " digits"
  | written => ""

def message (e : Excess) : String :=
  "Exceeds the limit (" ++ toString maxDigits ++
    " digits) for integer string conversion" ++ e.count ++
    "; use sys.set_int_max_str_digits() to increase the limit"

end Excess

/-- The integer in base ten, if it can be written. -/
def write (n : Int) : Except Excess String :=
  if isWritable n then .ok (integerString n) else .error .written

end Octets.Decimal
