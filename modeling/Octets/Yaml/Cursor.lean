/-!
# Places in a document

The part of a document that is still to be read, with the index, the line and the column of its
first character, all counted from zero, and the size of the whole document, which bounds the rounds
of every loop that takes characters. Behind the end of a document every character is U+0000, which
no document holds.
-/

namespace Octets.Yaml

/-- A place in a document. -/
structure Cursor where
  rest : List Char
  index : Nat
  line : Nat
  column : Nat
  size : Nat

/-! ## Classes of characters -/

/-- A character that ends a line. -/
def isBreak (c : Char) : Bool :=
  c == '\n' || c == '\r' || c == '\u0085' || c == '\u2028' || c == '\u2029'

/-- The end of the document or of a line. -/
def isLineEnd (c : Char) : Bool := c == '\x00' || isBreak c

/-- A blank, or the end of a line or of the document. -/
def isGap (c : Char) : Bool := c == ' ' || c == '\t' || isLineEnd c

/-- A character that may stand in a document. -/
def isAllowed (c : Char) : Bool :=
  let n := c.toNat
  n == 0x09 || n == 0x0a || n == 0x0d || (0x20 ≤ n && n ≤ 0x7e) || n == 0x85 ||
    (0xa0 ≤ n && n ≤ 0xd7ff) || (0xe000 ≤ n && n ≤ 0xfffd) || 0x10000 ≤ n

/-- An ASCII letter or digit, the hyphen or the underscore. -/
def isWordChar (c : Char) : Bool := c.isAlphanum || c == '-' || c == '_'

namespace Cursor

/-- The start of a document. -/
def start (s : List Char) : Cursor := ⟨s, 0, 0, 0, s.length⟩

/-- The character `ahead` places on. -/
def peekAt (c : Cursor) (ahead : Nat) : Char := c.rest.getD ahead '\x00'

/-- The character here. -/
def peek (c : Cursor) : Char := c.rest.headD '\x00'

/-- One character on. A carriage return before a line feed is not yet the end of the line. -/
def advance (c : Cursor) : Cursor :=
  match c.rest with
  | [] => c
  | ch :: rest =>
    if isBreak ch && !(ch == '\r' && rest.headD '\x00' == '\n') then
      { c with rest := rest, index := c.index + 1, line := c.line + 1, column := 0 }
    else
      let column := if ch == '\ufeff' then c.column else c.column + 1
      { c with rest := rest, index := c.index + 1, column := column }

/-- Several characters on. -/
def skip (c : Cursor) : Nat → Cursor
  | 0 => c
  | n + 1 => c.advance.skip n

/-- The characters of a class that stand here, and the place behind them. -/
def takeWhile (c : Cursor) (p : Char → Bool) : List Char × Cursor :=
  let s := c.rest.takeWhile p
  (s, c.skip s.length)

/-- The place behind the characters of a class. -/
def dropWhile (c : Cursor) (p : Char → Bool) : Cursor := (c.takeWhile p).2

/-- The end of a line, as the character it stands for, and the place behind it. -/
def lineBreak? (c : Cursor) : Option (Char × Cursor) :=
  match c.rest with
  | '\r' :: '\n' :: _ => some ('\n', c.skip 2)
  | ch :: _ =>
    if ch == '\u2028' || ch == '\u2029' then some (ch, c.skip 1)
    else if isBreak ch then some ('\n', c.skip 1)
    else none
  | [] => none

/-- Do three equal characters stand here, and then a gap? -/
def isMark (c : Cursor) (ch : Char) : Bool :=
  c.rest.take 3 == [ch, ch, ch] && isGap (c.peekAt 3)

/-- Does the mark of the start or of the end of a document stand here? -/
def isSeparator (c : Cursor) : Bool := c.isMark '-' || c.isMark '.'

end Cursor

end Octets.Yaml
