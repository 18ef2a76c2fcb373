import Octets.Decimal.Reading
import Octets.Yaml.Scalar

/-!
# Tokens

The tokens of a document: indicators, texts, and the starts and ends of blocks that only the
indentation shows.

A key of a mapping may be a plain text or a bracket without any indicator before it; only the colon
behind it shows that it was one. So the place of every token that may be such a key is remembered,
and the colon puts the indicator there afterwards. A key must stand on one line and have at most
1024 characters.

Tokens are read as far as they are asked for: `Lexer.peek` reads on until it is settled what the
next one is. Each token takes a character or is the last, so the length of the document bounds their
number.
-/

namespace Octets.Yaml

/-- A token. -/
inductive Token where
  /-- A directive with its major version, or with a handle for tags; any other directive is
  skipped. -/
  | version (major : Nat)
  | handle (name expansion : List Char)
  | otherDirective
  | documentStart
  | documentEnd
  | sequenceStart
  | mappingStart
  | blockEnd
  | flowSequenceStart
  | flowSequenceEnd
  | flowMappingStart
  | flowMappingEnd
  | entry
  | comma
  | key
  | value
  | alias (name : List Char)
  | anchor (name : List Char)
  /-- A tag: the handle in front, if there is one, and the rest. -/
  | tag (handle : Option (List Char)) (suffix : List Char)
  | scalar (text : List Char) (plain : Bool)
  deriving DecidableEq, Repr

/-- A token that may turn out to be a key: its number among the tokens, whether it must be one, and
its place. -/
structure PossibleKey where
  number : Nat
  required : Bool
  index : Nat
  line : Nat
  column : Nat

/-- The state of the lexer: the place, how deep in brackets it is, the indentation and those around
it, whether a key may start here, the possible keys by depth, the tokens that are read but not yet
taken, the number of those taken, and whether the document has ended. -/
structure Lexer where
  cursor : Cursor
  depth : Nat
  indent : Int
  outer : List Int
  allowKey : Bool
  keys : List (Nat × PossibleKey)
  tokens : List Token
  taken : Nat
  ended : Bool

namespace Lexer

/-- The start of a document. -/
def start (s : List Char) : Lexer := ⟨Cursor.start s, 0, -1, [], true, [], [], 0, false⟩

/-- Adds a token. -/
def push (l : Lexer) (t : Token) : Lexer := { l with tokens := l.tokens ++ [t] }

/-- Adds a token and goes on. -/
def emit (l : Lexer) (t : Token) (width : Nat) : Lexer :=
  { l.push t with cursor := l.cursor.skip width }

/-- Puts a token in front of the one with a number. -/
def insert (l : Lexer) (number : Nat) (t : Token) : Lexer :=
  let i := number - l.taken
  { l with tokens := l.tokens.take i ++ t :: l.tokens.drop i }

def column (l : Lexer) : Int := l.cursor.column

/-! ## Possible keys -/

/-- Forgets the possible keys that are too far back; one that had to be a key is a flaw. -/
def dropStale (l : Lexer) : Reading Lexer :=
  let isStale (k : PossibleKey) : Bool :=
    k.line != l.cursor.line || 1024 < l.cursor.index - k.index
  if l.keys.any fun e => isStale e.2 && e.2.required then malformed
  else .ok { l with keys := l.keys.filter fun e => !isStale e.2 }

/-- Forgets the possible key at this depth; one that had to be a key is a flaw. -/
def removeKey (l : Lexer) : Reading Lexer :=
  if l.keys.any fun e => e.1 == l.depth && e.2.required then malformed
  else .ok { l with keys := l.keys.filter fun e => e.1 != l.depth }

/-- Remembers that the next token may be a key. -/
def saveKey (l : Lexer) : Reading Lexer :=
  if l.allowKey then do
    let l ← l.removeKey
    let key : PossibleKey :=
      { number := l.taken + l.tokens.length
        required := l.depth == 0 && l.indent == l.column
        index := l.cursor.index
        line := l.cursor.line
        column := l.cursor.column }
    return { l with keys := (l.depth, key) :: l.keys }
  else .ok l

/-! ## Indentation -/

/-- Ends the blocks whose indentation is greater than a column. -/
def unwind (l : Lexer) (column : Int) : Lexer :=
  if l.depth == 0 then
    let ended := (l.indent :: l.outer).takeWhile fun i => column < i
    let left := (l.indent :: l.outer).dropWhile fun i => column < i
    { l with
      indent := left.headD (-1)
      outer := left.drop 1
      tokens := l.tokens ++ List.replicate ended.length .blockEnd }
  else l

/-- Starts a block at a column, if it is indented more than the one around it. -/
def indentTo (l : Lexer) (column : Int) : Bool × Lexer :=
  if l.indent < column then (true, { l with indent := column, outer := l.indent :: l.outer })
  else (false, l)

/-- Starts a block here, with a token for it. -/
def openBlock (l : Lexer) (t : Token) : Reading Lexer :=
  if l.depth == 0 then
    if l.allowKey then
      let (opened, l) := l.indentTo l.column
      .ok (if opened then l.push t else l)
    else malformed
  else .ok l

/-! ## Gaps -/

/-- Goes on over blanks, comments and line ends. Outside brackets a key may start on a new line. -/
def skipGap : Nat → Lexer → Lexer
  | 0, l => l
  | fuel + 1, l =>
    let c := l.cursor.dropWhile (· == ' ')
    let c := if c.peek == '#' then c.dropWhile fun ch => !isLineEnd ch else c
    match c.lineBreak? with
    | none => { l with cursor := c }
    | some (_, c) => skipGap fuel { l with cursor := c, allowKey := l.allowKey || l.depth == 0 }

/-! ## Tokens with a text -/

/-- Reads the name of an anchor or of an alias. -/
def name (c : Cursor) : Reading (List Char × Cursor) :=
  let (name, c) := c.takeWhile isWordChar
  let next := c.peek
  if name.isEmpty then malformed
  else if isGap next || ['?', ':', ',', ']', '\x7d', '%', '@', '\x60'].contains next then
    .ok (name, c)
  else malformed

/-- A character that may stand in a tag. -/
def isUriChar (c : Char) : Bool :=
  c.isAlphanum || "-;/?:@&=+$,_.!~*'()[]".toList.contains c

/-- The bytes of escapes by two digits. -/
def uriEscapes : Nat → Cursor → Option (Bytes × Cursor)
  | 0, c => some ([], c)
  | fuel + 1, c =>
    if c.peek == '%' then do
      let high ← Text.Hex.value? (c.peekAt 1)
      let low ← Text.Hex.value? (c.peekAt 2)
      let (more, c) ← uriEscapes fuel (c.skip 3)
      return (UInt8.ofNat (high * 16 + low) :: more, c)
    else some ([], c)

/-- Reads the text of a tag; escapes stand for the bytes of characters. -/
def uri : Nat → Cursor → Option (List Char × Cursor)
  | 0, c => some ([], c)
  | fuel + 1, c =>
    if c.peek == '%' then do
      let (bytes, c) ← uriEscapes fuel c
      let text ← (Text.Utf8.decode bytes).toOption
      let (more, c) ← uri fuel c
      return (text ++ more, c)
    else if isUriChar c.peek then (uri fuel (c.skip 1)).map fun (more, c') => (c.peek :: more, c')
    else some ([], c)

/-- Reads the text of a tag, which must not be empty. -/
def uri? (c : Cursor) : Option (List Char × Cursor) := do
  let (text, c) ← uri (c.size + 1) c
  if text.isEmpty then none else return (text, c)

/-- Reads the handle of a tag: two exclamation marks, with a word between them or none. -/
def handle? (c : Cursor) : Option (List Char × Cursor) :=
  if c.peek == '!' then
    let (word, behind) := (c.skip 1).takeWhile isWordChar
    if behind.peek == '!' then some ('!' :: word ++ ['!'], behind.skip 1)
    else if word.isEmpty && (c.peekAt 1) == ' ' then some (['!'], c.skip 1)
    else none
  else none

/-- Does an exclamation mark stand in the word behind the first character? -/
def hasHandle (c : Cursor) : Bool :=
  ((c.rest.drop 1).takeWhile fun ch => ch != ' ' && !isLineEnd ch).contains '!'

/-- Reads a tag from its exclamation mark on, whatever stands behind it. -/
def tagBody? (c : Cursor) : Option (Token × Cursor) :=
  let next := c.peekAt 1
  if next == '<' then do
    let (suffix, c) ← uri? (c.skip 2)
    if c.peek == '>' then return (.tag none suffix, c.skip 1) else none
  else if isGap next then some (.tag none ['!'], c.skip 1)
  else if hasHandle c then do
    let (handle, c) ← handle? c
    let (suffix, c) ← uri? c
    return (.tag (some handle) suffix, c)
  else do
    let (suffix, c) ← uri? (c.skip 1)
    return (.tag (some ['!']) suffix, c)

/-- Reads a tag from its exclamation mark on, up to a blank or the end of the line. -/
def tag? (c : Cursor) : Option (Token × Cursor) := do
  let (token, c) ← tagBody? c
  if c.peek == ' ' || isLineEnd c.peek then return (token, c) else none

/-! ## Directives -/

/-- Reads decimal digits. -/
def digits (c : Cursor) : Reading (Nat × Cursor) :=
  let (digits, c) := c.takeWhile Char.isDigit
  if digits.isEmpty then malformed
  else if Decimal.maxDigits < digits.length then .error (.badValue (.excess (.read digits.length)))
  else .ok (Decimal.natural 10 digits, c)

/-- Reads what follows the name of a directive, as far as it counts. -/
def directiveBody (name : List Char) (c : Cursor) : Reading (Token × Cursor) :=
  let c' := c.dropWhile (· == ' ')
  if name == "YAML".toList then do
    let (major, c) ← digits c'
    if c.peek == '.' then
      let (_, c) ← digits (c.skip 1)
      if c.peek == ' ' || isLineEnd c.peek then return (.version major, c) else malformed
    else malformed
  else if name == "TAG".toList then do
    let (handle, c) ← require (handle? c')
    if c.peek == ' ' then
      let (expansion, c) ← require (uri? (c.dropWhile (· == ' ')))
      if c.peek == ' ' || isLineEnd c.peek then return (.handle handle expansion, c) else malformed
    else malformed
  else .ok (.otherDirective, c.dropWhile fun ch => !isLineEnd ch)

/-- Reads a directive from its percent sign on, up to the end of the line. -/
def directive (c : Cursor) : Reading (Token × Cursor) := do
  let (name, c) := (c.skip 1).takeWhile isWordChar
  if name.isEmpty || !(c.peek == ' ' || isLineEnd c.peek) then malformed
  else
    let (token, c) ← directiveBody name c
    let c := c.dropWhile (· == ' ')
    let c := if c.peek == '#' then c.dropWhile fun ch => !isLineEnd ch else c
    match c.lineBreak? with
    | some (_, c) => return (token, c)
    | none => if c.rest.isEmpty then return (token, c) else malformed

/-! ## One token -/

/-- Adds a token with a text, behind which no key can start. -/
def withText (l : Lexer) (token : Token) (c : Cursor) : Lexer :=
  { l.push token with cursor := c, allowKey := false }

/-- Ends all blocks, before a token at the first column that stands between documents. -/
def between (l : Lexer) : Reading Lexer := do
  let l ← (l.unwind (-1)).removeKey
  return { l with allowKey := false }

/-- The colon of a mapping. The possible key at this depth becomes one; without one the key is
empty. -/
def colon (l : Lexer) : Reading Lexer :=
  match l.keys.find? fun e => e.1 == l.depth with
  | some (_, key) =>
    let l := { l with keys := l.keys.filter fun e => e.1 != l.depth }
    let l := l.insert key.number .key
    let (opened, l) := if l.depth == 0 then l.indentTo key.column else (false, l)
    let l := if opened then l.insert key.number .mappingStart else l
    .ok { l.emit .value 1 with allowKey := false }
  | none => do
    let l ← l.openBlock .mappingStart
    let l ← ({ l with allowKey := l.depth == 0 } : Lexer).removeKey
    return l.emit .value 1

/-- A bracket that opens. -/
def bracketOpen (l : Lexer) (t : Token) : Reading Lexer := do
  let l ← l.saveKey
  return { l.emit t 1 with depth := l.depth + 1, allowKey := true }

/-- A bracket that closes. -/
def bracketClose (l : Lexer) (t : Token) : Reading Lexer :=
  if l.depth == 0 then malformed
  else do
    let l ← l.removeKey
    return { l.emit t 1 with depth := l.depth - 1, allowKey := false }

/-- May a plain text start here? -/
def startsPlain (l : Lexer) : Bool :=
  let ch := l.cursor.peek
  !(isGap ch || "-?:,[]\x7b\x7d#&*!|>'\"%@\x60".toList.contains ch) ||
    (!isGap (l.cursor.peekAt 1) && (ch == '-' || (l.depth == 0 && (ch == '?' || ch == ':'))))

/-- Reads a text of any of the four forms. -/
def text (l : Lexer) : Reading Lexer := do
  let c := l.cursor
  let fuel := c.size + 1
  let ch := c.peek
  if (ch == '|' || ch == '>') && l.depth == 0 then
    let l ← ({ l with allowKey := true } : Lexer).removeKey
    let (s, c) ← Scalar.block (ch == '>') l.indent (c.skip 1)
    return { l.push (.scalar s false) with cursor := c }
  else if ch == '\'' || ch == '"' then
    let l ← l.saveKey
    let (s, c) ← Scalar.quoted (ch == '"') fuel (c.skip 1)
    return l.withText (.scalar s false) c
  else if l.startsPlain then
    let l ← l.saveKey
    let (s, crossed, c) := Scalar.plain (l.depth != 0) (l.indent + 1) fuel c false
    return { l.push (.scalar s true) with cursor := c, allowKey := crossed }
  else malformed

/-- Reads the next token. -/
def next (l : Lexer) : Reading Lexer := do
  let c := l.cursor
  let ch := c.peek
  let gap := isGap (c.peekAt 1)
  let first := c.column == 0
  if first && ch == '%' then
    let l ← l.between
    let (token, c) ← directive c
    return { l.push token with cursor := c }
  else if first && c.isMark '-' then return (← l.between).emit .documentStart 3
  else if first && c.isMark '.' then return (← l.between).emit .documentEnd 3
  else if ch == '[' then l.bracketOpen .flowSequenceStart
  else if ch == '\x7b' then l.bracketOpen .flowMappingStart
  else if ch == ']' then l.bracketClose .flowSequenceEnd
  else if ch == '\x7d' then l.bracketClose .flowMappingEnd
  else if ch == ',' then
    let l ← ({ l with allowKey := true } : Lexer).removeKey
    return l.emit .comma 1
  else if ch == '-' && gap then
    let l ← l.openBlock .sequenceStart
    let l ← ({ l with allowKey := true } : Lexer).removeKey
    return l.emit .entry 1
  else if ch == '?' && (l.depth != 0 || gap) then
    let l ← l.openBlock .mappingStart
    let l ← ({ l with allowKey := l.depth == 0 } : Lexer).removeKey
    return l.emit .key 1
  else if ch == ':' && (l.depth != 0 || gap) then l.colon
  else if ch == '*' then
    let l ← l.saveKey
    let (name, c) ← name (c.skip 1)
    return l.withText (.alias name) c
  else if ch == '&' then
    let l ← l.saveKey
    let (name, c) ← name (c.skip 1)
    return l.withText (.anchor name) c
  else if ch == '!' then
    let l ← l.saveKey
    let (token, c) ← require (tag? c)
    return l.withText token c
  else l.text

/-- Reads on behind the gap here: the next token with those that are found with it, or the end. -/
def readOn (l : Lexer) : Reading Lexer := do
  let l ← (skipGap (l.cursor.size + 1) l).dropStale
  let l := l.unwind l.column
  if l.cursor.rest.isEmpty then
    let l ← (l.unwind (-1)).removeKey
    return { l with allowKey := false, keys := [], ended := true }
  else l.next

/-! ## The tokens -/

/-- Reads on until it is settled what the next token is: until there is one, and it cannot turn out
to be a key any more. -/
def settle : Nat → Lexer → Reading Lexer
  | 0, l => .ok l
  | fuel + 1, l => do
    if l.ended then return l
    else if l.tokens.isEmpty then settle fuel (← l.readOn)
    else
      let l ← l.dropStale
      if l.keys.any fun e => e.2.number == l.taken then settle fuel (← l.readOn) else return l

/-- The next token, if there is one. -/
def peek (l : Lexer) : Reading (Option Token × Lexer) := do
  let l ← settle (l.cursor.size + 2) l
  return (l.tokens.head?, l)

/-- Takes the next token. -/
def take (l : Lexer) : Lexer := { l with tokens := l.tokens.drop 1, taken := l.taken + 1 }

/-- The lexer of a document. A byte order mark at the start counts for nothing. -/
def ofText (s : List Char) : Reading Lexer :=
  if s.all isAllowed then
    let l := start s
    .ok (if s.head? = some '\ufeff' then { l with cursor := l.cursor.advance } else l)
  else malformed

end Lexer

end Octets.Yaml
