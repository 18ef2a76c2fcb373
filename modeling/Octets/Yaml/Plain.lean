import Octets.Yaml.Moment
import Octets.Yaml.Tag

/-!
# Plain scalars

What a text without quotes stands for. Each kind of value has its own form, and the first form that
fits decides: truth value, floating-point number, integer, merge key, null, time stamp, the equals
sign; any other text is itself.

Digits may be grouped by underscores, and a number may be written in base 60 with colons. An integer
may be written in base 2, 8 or 16; a leading zero alone means base 8. One line feed at the end of a
text does not count for its form.
-/

namespace Octets.Yaml.Plain

/-! ## Numbers -/

def isDigit (c : Char) : Bool := Decimal.isDigit c

/-- A digit or a grouping mark. -/
def isGrouped (c : Char) : Bool := isDigit c || c == '_'

/-- The text without one sign in front. -/
def unsigned (s : List Char) : List Char :=
  match s with
  | c :: rest => if c == '-' || c == '+' then rest else s
  | [] => []

/-- A digit and then digits and marks; the rest of the text. -/
def groupedDigits? (s : List Char) : Option (List Char) :=
  if isDigit (s.headD ' ') then some (s.dropWhile isGrouped) else none

/-- An exponent with a sign, or nothing. -/
def isExponent (s : List Char) : Bool :=
  match s with
  | [] => true
  | e :: sign :: digits =>
    (e == 'e' || e == 'E') && (sign == '-' || sign == '+') && !digits.isEmpty && digits.all isDigit
  | _ => false

/-- Colons with one or two digits behind each, below sixty; the rest of the text. None if there is
not one of them. -/
def sexagesimal? : List Char → Option (List Char)
  | ':' :: a :: b :: rest =>
    if '0' ≤ a && a ≤ '5' && isDigit b then some ((sexagesimal? rest).getD rest)
    else if isDigit a then some ((sexagesimal? (b :: rest)).getD (b :: rest))
    else none
  | ':' :: [a] => if isDigit a then some [] else none
  | _ => none

/-- The form of a floating-point number. -/
def isFloat (s : List Char) : Bool :=
  let body := unsigned s
  let decimal := match groupedDigits? body with
    | some ('.' :: rest) => isExponent (rest.dropWhile isGrouped)
    | some rest =>
      match sexagesimal? rest with
      | some ('.' :: rest) => rest.all isGrouped
      | _ => false
    | none => false
  let fraction := match s with
    | '.' :: rest =>
      match groupedDigits? rest with
      | some rest => isExponent rest
      | none => false
    | _ => false
  let infinite := [".inf", ".Inf", ".INF"].any fun w => w.toList == body
  decimal || fraction || infinite || [".nan", ".NaN", ".NAN"].any fun w => w.toList == s

/-- At least one character, all of a class. -/
def isSome (p : Char → Bool) (s : List Char) : Bool := !s.isEmpty && s.all p

/-- The form of an integer. -/
def isInt (s : List Char) : Bool :=
  match unsigned s with
  | ['0'] => true
  | '0' :: 'b' :: digits => isSome (fun c => c == '0' || c == '1' || c == '_') digits
  | '0' :: 'x' :: digits => isSome (fun c => (Text.Hex.value? c).isSome || c == '_') digits
  | '0' :: digits => isSome (fun c => ('0' ≤ c && c ≤ '7') || c == '_') digits
  | body =>
    match groupedDigits? body with
    | some [] => true
    | some rest => sexagesimal? rest == some []
    | none => false

/-! ## Words -/

/-- The words of truth values. -/
def truths : List String :=
  ["yes", "Yes", "YES", "true", "True", "TRUE", "on", "On", "ON"]

def falsehoods : List String :=
  ["no", "No", "NO", "false", "False", "FALSE", "off", "Off", "OFF"]

/-- The words of null. -/
def nulls : List String := ["~", "null", "Null", "NULL", ""]

def isAmong (words : List String) (s : List Char) : Bool := words.any fun w => w.toList == s

/-! ## Tags -/

/-- The part of a text that counts for its form: all but one line feed at the end. A line feed alone
counts. -/
def body (s : List Char) : List Char :=
  if s.getLast? = some '\n' ∧ s ≠ ['\n'] then s.dropLast else s

/-- What a text without quotes stands for. -/
def tag (s : List Char) : Tag :=
  let s := body s
  if isAmong truths s || isAmong falsehoods s then .bool
  else if isFloat s then .float
  else if isInt s then .int
  else if s == ['<', '<'] then .merge
  else if isAmong nulls s then .null
  else if Moment.isPlain s then .timestamp
  else if s == ['='] then .value
  else .str

end Octets.Yaml.Plain
