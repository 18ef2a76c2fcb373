import Octets.Text.Units
import Octets.Yaml.Cursor
import Octets.Yaml.Reading

/-!
# Scalars

The four ways a text is written: plain, between single or double quotes, and as a block. Each reader
starts at the first character behind the indicator, gives the text and the place behind it, and
refuses a text that is not well formed.

A line end inside a text is folded: alone it becomes a blank, and of several the first is dropped. A
line end other than the line feed is kept.

Every round of a loop takes a character, so the size of the document bounds them all; it is the
fuel.
-/

namespace Octets.Yaml.Scalar

/-- What the line ends of a folded text become: the first one, then those behind it. -/
def folded (first : Char) (more : List Char) : List Char :=
  (if first != '\n' then [first] else if more.isEmpty then [' '] else []) ++ more

/-! ## Quoted texts -/

/-- Reads the empty lines inside a quoted text and the blanks behind them. -/
def quotedBreaks : Nat → Cursor → Reading (List Char × Cursor)
  | 0, _ => malformed
  | fuel + 1, c =>
    if c.isSeparator then malformed
    else
      let c := c.dropWhile fun ch => ch == ' ' || ch == '\t'
      match c.lineBreak? with
      | none => .ok ([], c)
      | some (ch, c) => (quotedBreaks fuel c).map fun (more, c) => (ch :: more, c)

/-- Reads blanks and line ends inside a quoted text. -/
def quotedSpaces (fuel : Nat) (c : Cursor) : Reading (List Char × Cursor) :=
  let (blanks, c) := c.takeWhile fun ch => ch == ' ' || ch == '\t'
  match c.lineBreak? with
  | none => .ok (blanks, c)
  | some (ch, c) => (quotedBreaks fuel c).map fun (more, c) => (folded ch more, c)

/-- The character for a letter behind a backslash. -/
def escaped? : Char → Option Char
  | '0' => some '\x00'
  | 'a' => some '\x07'
  | 'b' => some '\x08'
  | 't' => some '\t'
  | '\t' => some '\t'
  | 'n' => some '\n'
  | 'v' => some '\x0b'
  | 'f' => some '\x0c'
  | 'r' => some '\r'
  | 'e' => some '\x1b'
  | ' ' => some ' '
  | '"' => some '"'
  | '\\' => some '\\'
  | '/' => some '/'
  | 'N' => some '\u0085'
  | '_' => some '\u00a0'
  | 'L' => some '\u2028'
  | 'P' => some '\u2029'
  | _ => none

/-- How many digits follow a letter that gives a character by its number. -/
def escapeWidth? : Char → Option Nat
  | 'x' => some 2
  | 'u' => some 4
  | 'U' => some 8
  | _ => none

/-- The number in so many hexadecimal digits. -/
def number? (width : Nat) (c : Cursor) : Option Nat := do
  let digits ← (c.rest.take width).mapM Text.Hex.value?
  if digits.length < width then none else some (digits.foldl (fun n d => n * 16 + d) 0)

/-- The greatest number that fits into 32 bits with a sign. -/
def maxNumber : Nat := 0x7fffffff

/-- The greatest number of a character. -/
def maxCharacter : Nat := 0x10ffff

/-- Reads a character by its number in so many digits. -/
def numbered (width : Nat) (c : Cursor) : Reading (Char × Cursor) := do
  let n ← require (number? width c)
  if maxNumber < n then throw (.overflow .character)
  else if maxCharacter < n then throw (.badValue .charRange)
  else return (Text.Units.ofNumber n, c.skip width)

/-- Reads an escape behind its backslash. A line end is dropped with the blanks behind it. -/
def escape (fuel : Nat) (c : Cursor) : Reading (List Char × Cursor) :=
  match escaped? c.peek, escapeWidth? c.peek, c.lineBreak? with
  | some ch, _, _ => .ok ([ch], c.skip 1)
  | none, some width, _ => (numbered width (c.skip 1)).map fun (ch, c) => ([ch], c)
  | none, none, some (_, c) => quotedBreaks fuel c
  | none, none, none => malformed

/-- Reads a quoted text up to behind its closing quote. -/
def quoted (double : Bool) : Nat → Cursor → Reading (List Char × Cursor)
  | 0, _ => malformed
  | fuel + 1, c =>
    let after (s : List Char) (c : Cursor) : Reading (List Char × Cursor) :=
      (quoted double fuel c).map fun (more, c) => (s ++ more, c)
    match c.rest with
    | [] => malformed
    | ch :: rest =>
      if !double && ch == '\'' && rest.headD '\x00' == '\'' then after ['\''] (c.skip 2)
      else if ch == (if double then '"' else '\'') then .ok ([], c.skip 1)
      else if double && ch == '\\' then
        match escape fuel (c.skip 1) with
        | .error fault => .error fault
        | .ok (s, c) => after s c
      else if isGap ch then
        match quotedSpaces fuel c with
        | .error fault => .error fault
        | .ok (s, c) => after s c
      else after [ch] (c.skip 1)

/-! ## Plain texts -/

/-- Does a character end a plain text inside brackets? -/
def isFlowEnd (c : Char) : Bool :=
  c == ',' || c == '?' || c == '[' || c == ']' || c == '\x7b' || c == '\x7d'

/-- Does a character behind a colon make the colon an indicator? -/
def isColonEnd (flow : Bool) (c : Char) : Bool :=
  isGap c || (flow && (c == ',' || c == '[' || c == ']' || c == '\x7b' || c == '\x7d'))

/-- The characters of a plain text up to the next gap or indicator. -/
def plainWord (flow : Bool) : List Char → List Char
  | [] => []
  | c :: rest =>
    if isGap c || (c == ':' && isColonEnd flow (rest.headD '\x00')) || (flow && isFlowEnd c) then []
    else c :: plainWord flow rest

/-- The line ends between two lines of a plain text, and the blanks at the start of lines. It stops
at a separator of documents, and says so. -/
def plainBreaks : Nat → Cursor → Bool × List Char × Cursor
  | 0, c => (false, [], c)
  | fuel + 1, c =>
    if c.peek == ' ' then plainBreaks fuel (c.skip 1)
    else
      match c.lineBreak? with
      | none => (false, [], c)
      | some (ch, c) =>
        if c.isSeparator then (true, [], c)
        else
          let (stopped, more, c) := plainBreaks fuel c
          (stopped, ch :: more, c)

/-- What stands between two words of a plain text: the gap as it counts for the text, whether a line
ended in it, and the place behind it. -/
def plainSpaces (fuel : Nat) (c : Cursor) : List Char × Bool × Cursor :=
  let (blanks, c) := c.takeWhile (· == ' ')
  match c.lineBreak? with
  | none => (blanks, false, c)
  | some (ch, c) =>
    if c.isSeparator then ([], true, c)
    else
      let (stopped, more, c) := plainBreaks fuel c
      (if stopped then [] else folded ch more, true, c)

/-- Reads a plain text that may go on at columns from `indent` on. Gives the text, whether a line
ended behind it, and the place behind it. -/
def plain (flow : Bool) (indent : Int) : Nat → Cursor → Bool → List Char × Bool × Cursor
  | 0, c, crossed => ([], crossed, c)
  | fuel + 1, c, crossed =>
    let word := plainWord flow c.rest
    if c.peek == '#' || word.isEmpty then ([], crossed, c)
    else
      let (gap, crossed, c) := plainSpaces fuel (c.skip word.length)
      if gap.isEmpty || c.peek == '#' || (!flow && (c.column : Int) < indent) then
        (word, crossed, c)
      else
        let (more, crossed, c) := plain flow indent fuel c crossed
        (if more.isEmpty then word else word ++ gap ++ more, crossed, c)

/-! ## Blocks -/

/-- What becomes of the line ends behind a block: all but one dropped, all dropped, or all kept. -/
inductive Chomping where
  | clip
  | strip
  | keep
  deriving DecidableEq, Repr

/-- Reads the mark for the line ends at the end. -/
def chomping? (c : Cursor) : Option (Chomping × Cursor) :=
  if c.peek == '+' then some (.keep, c.skip 1)
  else if c.peek == '-' then some (.strip, c.skip 1)
  else none

/-- Reads the mark for the indentation, a digit from 1. -/
def increment? (c : Cursor) : Option (Nat × Cursor) :=
  let n := c.peek.toNat
  if 0x31 ≤ n && n ≤ 0x39 then some (n - 0x30, c.skip 1) else none

/-- Reads the marks behind the indicator of a block, in either order. -/
def header (c : Cursor) : Chomping × Option Nat × Cursor :=
  match chomping? c with
  | some (chomping, c) =>
    match increment? c with
    | some (n, c) => (chomping, some n, c)
    | none => (chomping, none, c)
  | none =>
    match increment? c with
    | some (n, c) =>
      match chomping? c with
      | some (chomping, c) => (chomping, some n, c)
      | none => (.clip, some n, c)
    | none => (.clip, none, c)

/-- Reads the rest of the line behind the marks: blanks, and a comment if a blank or mark is before
it. -/
def headerEnd? (c : Cursor) : Option Cursor :=
  if c.peek == ' ' || isLineEnd c.peek then
    let c := c.dropWhile (· == ' ')
    let c := if c.peek == '#' then c.dropWhile fun ch => !isLineEnd ch else c
    match c.lineBreak? with
    | some (_, c) => some c
    | none => if c.rest.isEmpty then some c else none
  else none

/-- Finds the indentation of a block: the empty lines before its text, and the furthest column
reached. -/
def indentation : Nat → Cursor → Nat → List Char × Nat × Cursor
  | 0, c, deepest => ([], deepest, c)
  | fuel + 1, c, deepest =>
    if c.peek == ' ' then
      let c := c.skip 1
      indentation fuel c (max deepest c.column)
    else
      match c.lineBreak? with
      | none => ([], deepest, c)
      | some (ch, c) =>
        let (more, deepest, c) := indentation fuel c deepest
        (ch :: more, deepest, c)

/-- Goes on over blanks up to a column. -/
def skipTo (indent : Nat) : Nat → Cursor → Cursor
  | 0, c => c
  | fuel + 1, c => if c.column < indent && c.peek == ' ' then skipTo indent fuel (c.skip 1) else c

/-- Reads the empty lines of a block, up to its indentation in the next line. -/
def blockBreaks (indent : Nat) : Nat → Cursor → List Char × Cursor
  | 0, c => ([], c)
  | fuel + 1, c =>
    let c := skipTo indent indent c
    match c.lineBreak? with
    | none => ([], c)
    | some (ch, c) =>
      let (more, c) := blockBreaks indent fuel c
      (ch :: more, c)

/-- Reads the lines of a block from a line's first character on. Gives the text without the line
ends behind it, the last line end, and the empty lines behind. -/
def blockLines (fold : Bool) (indent : Nat) :
    Nat → Cursor → List Char × List Char × List Char × Cursor
  | 0, c => ([], [], [], c)
  | fuel + 1, c =>
    let solid := c.peek != ' ' && c.peek != '\t'
    let (line, c) := c.takeWhile fun ch => !isLineEnd ch
    let (ending, c) := match c.lineBreak? with
      | some (ch, c) => ([ch], c)
      | none => ([], c)
    let (breaks, c) := blockBreaks indent fuel c
    if c.column == indent && !c.rest.isEmpty then
      let joint :=
        if fold && ending == ['\n'] && solid && c.peek != ' ' && c.peek != '\t' then
          if breaks.isEmpty then [' '] else []
        else ending
      let (more, ending, after, c) := blockLines fold indent fuel c
      (line ++ joint ++ breaks ++ more, ending, after, c)
    else (line, ending, breaks, c)

/-- Reads a block behind its indicator; `parent` is the indentation around it. -/
def block (fold : Bool) (parent : Int) (c : Cursor) : Reading (List Char × Cursor) :=
  let fuel := c.size + 1
  let (chomping, increment, c) := header c
  match headerEnd? c with
  | none => malformed
  | some c =>
    let least := (parent + 1).toNat.max 1
    let (breaks, indent, c) := match increment with
      | some n =>
        let indent := least + n - 1
        let (breaks, c) := blockBreaks indent fuel c
        (breaks, indent, c)
      | none =>
        let (breaks, deepest, c) := indentation fuel c 0
        (breaks, max least deepest, c)
    let (text, ending, after, c) :=
      if c.column == indent && !c.rest.isEmpty then
        let (text, ending, after, c) := blockLines fold indent fuel c
        (breaks ++ text, ending, after, c)
      else ([], [], breaks, c)
    match chomping with
    | .clip => .ok (text ++ ending, c)
    | .strip => .ok (text, c)
    | .keep => .ok (text ++ ending ++ after, c)

end Octets.Yaml.Scalar
