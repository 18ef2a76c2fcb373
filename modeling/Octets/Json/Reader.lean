import Octets.Decimal.Limit
import Octets.Decimal.Reading
import Octets.Json.Text
import Octets.Value

/-!
# Reading JSON

A document is one value between blanks. Beside the values of the format, `NaN`, `Infinity` and
`-Infinity` are read as floating-point numbers. A key that is repeated keeps its first place and its
last value.

Reading stops at the first flaw, with its line, column and index. Every call takes at least one
character before it calls on, so the number of characters bounds the depth; it is the fuel of the
recursion and never runs out. A value that stands inside more than `maxDepth` others is not read.
-/

namespace Octets.Json

/-! ## Blanks and literals -/

def isBlank (c : Char) : Bool := c == ' ' || c == '\t' || c == '\n' || c == '\r'

/-- Moves on behind `count` characters. -/
def Cursor.skip (cursor : Cursor) (count : Nat) : Cursor :=
  ⟨cursor.pos + count, cursor.rest.drop count⟩

/-- Moves on behind the blanks. -/
def Cursor.skipBlanks (cursor : Cursor) : Cursor :=
  cursor.skip (cursor.rest.takeWhile isBlank).length

/-- Moves on behind a word, if it stands here. -/
def Cursor.word? (cursor : Cursor) (word : String) : Option Cursor :=
  if word.toList.isPrefixOf cursor.rest then some (cursor.skip word.length) else none

/-- The values that are words. -/
def words : List (String × Value) :=
  [("null", .null), ("true", .bool true), ("false", .bool false), ("NaN", .float (0.0 / 0.0)),
    ("Infinity", .float (1.0 / 0.0)), ("-Infinity", .float (-1.0 / 0.0))]

/-! ## Numbers -/

/-- The parts of a number: sign, digits before and behind the point, exponent. -/
structure Numeral where
  negative : Bool
  whole : List Char
  fraction : List Char
  exponent : Option Int

/-- The digits of the whole part: a lone zero, or digits that start with none. -/
def wholeDigits (s : List Char) : List Char :=
  match s with
  | '0' :: _ => ['0']
  | _ => s.takeWhile Decimal.isDigit

/-- The digits behind a point; none if there is no point or no digit behind it. -/
def fractionDigits (s : List Char) : List Char :=
  match s with
  | '.' :: rest => rest.takeWhile Decimal.isDigit
  | _ => []

/-- The value of an exponent and the number of characters it takes. -/
def exponent? (s : List Char) : Option (Int × Nat) :=
  match s with
  | e :: rest =>
    if e = 'e' ∨ e = 'E' then
      let sign := rest.take 1
      let signed := sign = ['-'] ∨ sign = ['+']
      let digits := (if signed then rest.drop 1 else rest).takeWhile Decimal.isDigit
      if digits.isEmpty then none
      else
        let size : Int := Decimal.natural 10 digits
        some (if sign = ['-'] then -size else size, 1 + (if signed then 1 else 0) + digits.length)
    else none
  | [] => none

/-- Reads a number. An exponent without digits, or a point without digits behind it, is not part of
it. -/
def numeral? (s : List Char) : Option (Numeral × Nat) :=
  let negative := s.take 1 = ['-']
  let digits := wholeDigits (if negative then s.drop 1 else s)
  if digits.isEmpty then none
  else
    let size := (if negative then 1 else 0) + digits.length
    let fraction := fractionDigits (s.drop size)
    let size := if fraction.isEmpty then size else size + 1 + fraction.length
    match exponent? (s.drop size) with
    | none => some (⟨negative, digits, fraction, none⟩, size)
    | some (e, count) => some (⟨negative, digits, fraction, some e⟩, size + count)

/-- The value of a number: an integer if it has neither fraction nor exponent. -/
def Numeral.value (n : Numeral) : Except Stop Value :=
  if n.fraction.isEmpty && n.exponent.isNone then
    if Decimal.maxDigits < n.whole.length then .error (.longInteger n.whole.length)
    else
      let size : Int := Decimal.natural 10 n.whole
      .ok (.int (if n.negative then -size else size))
  else .ok (.float (Decimal.float n.negative n.whole n.fraction (n.exponent.getD 0)))

/-- Reads a word or a number. -/
def scalar (cursor : Cursor) : Except Stop (Value × Cursor) :=
  match words.findSome? fun w => (cursor.word? w.1).map fun c => (w.2, c) with
  | some result => .ok result
  | none =>
    match numeral? cursor.rest with
    | none => .error (.flaw .value cursor.pos)
    | some (n, size) => n.value.map fun v => (v, cursor.skip size)

/-! ## Values -/

/-- The most values around another one that are read. -/
def maxDepth : Nat := 985

mutual

/-- Reads a value, in which others may stand `room` deep. -/
def value : Nat → Nat → Cursor → Except Stop (Value × Cursor)
  | 0, _, cursor => .error (.flaw .value cursor.pos)
  | fuel + 1, room, cursor =>
    match cursor.rest, room with
    | '"' :: rest, _ => do
      let (s, cursor) ← unescape cursor.pos (cursor.pos + 1) rest
      return (.text (String.ofList s), cursor)
    | '[' :: _, 0 => .error (.tooDeep .array)
    | '\x7b' :: _, 0 => .error (.tooDeep .object)
    | '[' :: _, room + 1 =>
      let cursor := (cursor.skip 1).skipBlanks
      match cursor.rest with
      | ']' :: _ => .ok (.list [], cursor.skip 1)
      | _ => do
        let (items, cursor) ← items fuel room cursor
        return (.list items, cursor)
    | '\x7b' :: _, room + 1 =>
      let cursor := (cursor.skip 1).skipBlanks
      match cursor.rest with
      | '\x7d' :: _ => .ok (.dict [], cursor.skip 1)
      | _ => do
        let (members, cursor) ← members fuel room cursor
        return (.dict (Dict.ofPairs members), cursor)
    | _, _ => scalar cursor

/-- Reads the items of a list, up to behind its bracket. -/
def items : Nat → Nat → Cursor → Except Stop (List Value × Cursor)
  | 0, _, cursor => .error (.flaw .value cursor.pos)
  | fuel + 1, room, cursor => do
    let (v, cursor) ← value fuel room cursor
    let cursor := cursor.skipBlanks
    match cursor.rest with
    | ']' :: _ => return ([v], cursor.skip 1)
    | ',' :: _ =>
      let (rest, cursor) ← items fuel room (cursor.skip 1).skipBlanks
      return (v :: rest, cursor)
    | _ => .error (.flaw .comma cursor.pos)

/-- Reads the members of an object, up to behind its bracket. -/
def members : Nat → Nat → Cursor → Except Stop (List (Value × Value) × Cursor)
  | 0, _, cursor => .error (.flaw .value cursor.pos)
  | fuel + 1, room, cursor =>
    match cursor.rest with
    | '"' :: rest => do
      let (key, cursor) ← unescape cursor.pos (cursor.pos + 1) rest
      let cursor := cursor.skipBlanks
      match cursor.rest with
      | ':' :: _ =>
        let (v, cursor) ← value fuel room (cursor.skip 1).skipBlanks
        let cursor := cursor.skipBlanks
        match cursor.rest with
        | '\x7d' :: _ => return ([(.text (String.ofList key), v)], cursor.skip 1)
        | ',' :: _ =>
          let (rest, cursor) ← members fuel room (cursor.skip 1).skipBlanks
          return ((.text (String.ofList key), v) :: rest, cursor)
        | _ => .error (.flaw .comma cursor.pos)
      | _ => .error (.flaw .colon cursor.pos)
    | _ => .error (.flaw .propertyName cursor.pos)

end

/-- Reads a document. -/
def document (s : List Char) : Except Stop Value :=
  match s with
  | '\ufeff' :: _ => .error (.flaw .mark 0)
  | _ => do
    let (v, cursor) ← value (2 * s.length + 2) maxDepth (Cursor.skipBlanks ⟨0, s⟩)
    let cursor := cursor.skipBlanks
    if cursor.rest.isEmpty then return v else .error (.flaw .extra cursor.pos)

/-! ## Faults with their place -/

/-- Why a text is no document. -/
inductive Fault where
  /-- A flaw with its line and column, counted from one, and its index. -/
  | flaw (flaw : Flaw) (line column pos : Nat)
  | longInteger (digits : Nat)
  | tooDeep (nest : Nest)
  deriving DecidableEq, Repr

/-- The line and the column of an index, both counted from one. -/
def place (s : List Char) (pos : Nat) : Nat × Nat :=
  let lead := s.take pos
  (lead.count '\n' + 1, (lead.reverse.takeWhile (· ≠ '\n')).length + 1)

/-- Reads a document; a flaw is given with its place. -/
def read (s : List Char) : Except Fault Value :=
  match document s with
  | .ok v => .ok v
  | .error (Stop.longInteger digits) => .error (.longInteger digits)
  | .error (Stop.tooDeep nest) => .error (.tooDeep nest)
  | .error (Stop.flaw flaw pos) =>
    let (line, column) := place s pos
    .error (.flaw flaw line column pos)

namespace Fault

def message : Fault → String
  | .flaw found line column pos =>
    found.message ++ ": line " ++ toString line ++ " column " ++ toString column ++ " (char " ++
      toString pos ++ ")"
  | .longInteger digits => (Decimal.Excess.read digits).message
  | .tooDeep nest =>
    "maximum recursion depth exceeded while decoding a JSON " ++ nest.word ++
      " from a unicode string"

end Fault

end Octets.Json
