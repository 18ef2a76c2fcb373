import Octets.Text.Units

/-!
# JSON strings

The text between the quotes of a JSON string, written and read.

* `escape` writes a text so that it stands on one line: the quote, the backslash and the characters
  below U+0020 are escaped, five of them by letter. With `ascii` set every other character outside
  the printable ASCII ones is escaped too, beyond U+FFFF as a surrogate pair.
* `unescape` reads up to the closing quote. A character below U+0020 may not stand for itself.

Positions are indices into the whole document; `start` is that of the opening quote.
-/

namespace Octets.Json

/-! ## Faults -/

/-- What is wrong at a place of a document. -/
inductive Flaw where
  | value
  | propertyName
  | colon
  | comma
  | extra
  | unterminated
  | escape
  | unicodeEscape
  | control
  | mark
  deriving DecidableEq, Repr

namespace Flaw

def message : Flaw → String
  | value => "Expecting value"
  | propertyName => "Expecting property name enclosed in double quotes"
  | colon => "Expecting ':' delimiter"
  | comma => "Expecting ',' delimiter"
  | extra => "Extra data"
  | unterminated => "Unterminated string starting at"
  | escape => "Invalid \\escape"
  | unicodeEscape => "Invalid \\uXXXX escape"
  | control => "Invalid control character at"
  | mark => "Unexpected UTF-8 BOM (decode using utf-8-sig)"

end Flaw

/-- The two kinds of values that hold others. -/
inductive Nest where
  | array
  | object
  deriving DecidableEq, Repr

/-- The name of the kind. -/
def Nest.word : Nest → String
  | .array => "array"
  | .object => "object"

/-- Why reading stops: a flaw at an index, an integer of more digits than are read, or a value
inside more others than are read. -/
inductive Stop where
  | flaw (flaw : Flaw) (pos : Nat)
  | longInteger (digits : Nat)
  | tooDeep (nest : Nest)
  deriving DecidableEq, Repr

/-! ## Writing -/

/-- A character inside a string. -/
def escapeChar (ascii : Bool) (c : Char) : List Char :=
  let n := Text.Units.number c
  if c = '"' ∨ c = '\\' then ['\\', c]
  else if n = 0x0a then ['\\', 'n']
  else if n = 0x0d then ['\\', 'r']
  else if n = 0x09 then ['\\', 't']
  else if n = 0x0c then ['\\', 'f']
  else if n = 0x08 then ['\\', 'b']
  else if n < 0x20 then Text.Units.escape n
  else if !ascii || n < 0x7f then [c]
  else if n < 0x10000 then Text.Units.escape n
  else
    Text.Units.escape (0xd800 + (n - 0x10000) / 0x400) ++
      Text.Units.escape (0xdc00 + (n - 0x10000) % 0x400)

/-- A text inside a string. -/
def escape (ascii : Bool) (s : List Char) : List Char := s.flatMap (escapeChar ascii)

/-- A string with its quotes. -/
def quote (ascii : Bool) (s : List Char) : List Char := '"' :: (escape ascii s ++ ['"'])

/-! ## Reading -/

/-- What is left of a document, and the index of its first character. -/
structure Cursor where
  pos : Nat
  rest : List Char

/-- The character that a letter behind a backslash stands for. -/
def letter? : Char → Option Char
  | '"' => some '"'
  | '\\' => some '\\'
  | '/' => some '/'
  | 'b' => some '\x08'
  | 'f' => some '\x0c'
  | 'n' => some '\n'
  | 'r' => some '\r'
  | 't' => some '\t'
  | _ => none

/-- The value of four hexadecimal digits. -/
def unit? (a b c d : Char) : Option Nat := do
  let a ← Text.Hex.value? a
  let b ← Text.Hex.value? b
  let c ← Text.Hex.value? c
  let d ← Text.Hex.value? d
  return ((a * 16 + b) * 16 + c) * 16 + d

/-- Puts a character in front of what is read next. -/
def before (c : Char) (r : Except Stop (List Char × Cursor)) : Except Stop (List Char × Cursor) :=
  r.map fun (s, cursor) => (c :: s, cursor)

/-- Reads the rest of a string, up to behind its closing quote. An escape by number needs a
character behind its digits, as does the second half of a pair. -/
def unescape (start pos : Nat) : List Char → Except Stop (List Char × Cursor)
  | [] => .error (.flaw .unterminated start)
  | '"' :: rest => .ok ([], ⟨pos + 1, rest⟩)
  | ['\\'] => .error (.flaw .unterminated start)
  | '\\' :: 'u' :: a :: b :: c :: d :: '\\' :: 'u' :: e :: f :: g :: h :: next :: rest =>
    match unit? a b c d with
    | none => .error (.flaw .unicodeEscape (pos + 1))
    | some high =>
      if Text.Units.isHigh high then
        match unit? e f g h with
        | none => .error (.flaw .unicodeEscape (pos + 7))
        | some low =>
          if Text.Units.isLow low then
            before (Text.Units.ofPair high low) (unescape start (pos + 12) (next :: rest))
          else
            before (Text.Units.ofNumber high)
              (unescape start (pos + 6) ('\\' :: 'u' :: e :: f :: g :: h :: next :: rest))
      else before (Text.Units.ofNumber high)
        (unescape start (pos + 6) ('\\' :: 'u' :: e :: f :: g :: h :: next :: rest))
  | '\\' :: 'u' :: a :: b :: c :: d :: next :: rest =>
    match unit? a b c d with
    | none => .error (.flaw .unicodeEscape (pos + 1))
    | some n => before (Text.Units.ofNumber n) (unescape start (pos + 6) (next :: rest))
  | '\\' :: 'u' :: _ => .error (.flaw .unicodeEscape (pos + 1))
  | '\\' :: c :: rest =>
    match letter? c with
    | none => .error (.flaw .escape pos)
    | some x => before x (unescape start (pos + 2) rest)
  | c :: rest =>
    if c.toNat < 0x20 then .error (.flaw .control pos)
    else before c (unescape start (pos + 1) rest)

end Octets.Json
