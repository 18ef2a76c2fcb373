import Octets.Yaml.Node
import Octets.Yaml.Plain
import Octets.Yaml.Token

/-!
# Parsing documents

`Parsed.ofText` reads the only document in a text into a table of nodes. An alias is the number of
the node of its anchor, which must stand before it; it may be a node around the alias, so that a
document holds itself.

Of three calls in a row one takes a token, and no character gives more than eight of them, so a
multiple of the length bounds the depth of the calls. Sequences and mappings inside more than
`maxDepth` others are not read.
-/

namespace Octets.Yaml

/-- Where a parser stands: the lexer, the nodes so far, the nodes of anchors, the handles of tags,
the nodes around this place, and whether an alias stood inside the node of its anchor. -/
structure Parser where
  lexer : Lexer
  nodes : Graph
  anchors : List (List Char × Ref)
  handles : List (List Char × List Char)
  around : List Ref
  looped : Bool

/-- A parser that may refuse. -/
abbrev Parsing := StateT Parser Reading

namespace Parser

/-- Refuses a document that is not well formed. -/
def refuse {α : Type} : Parsing α := throw .markup

/-! ## Tokens and tags -/

/-- The next token, if there is one. -/
def peek : Parsing (Option Token) := do
  let s ← get
  let (token, lexer) ← s.lexer.peek
  set { s with lexer := lexer }
  return token

/-- Goes on behind the next token. -/
def drop : Parsing Unit := modify fun p => { p with lexer := p.lexer.take }

/-- Goes on behind the next token if it is the one asked for; otherwise refuses. -/
def expect (t : Token) : Parsing Unit := do
  if (← peek) = some t then drop else refuse

/-- The handles that every document has. -/
def standardHandles : List (List Char × List Char) := [(['!'], ['!']), (['!', '!'], Tag.standard)]

/-- The anchor and the tag in front of a node, in either order. -/
structure Properties where
  anchor : Option (List Char)
  tag : Option (List Char)

/-- The full text of a tag. -/
def expand (handle : Option (List Char)) (suffix : List Char) : Parsing (List Char) := do
  match handle with
  | none => return suffix
  | some handle =>
    match (← get).handles.find? fun e => e.1 == handle with
    | some (_, expansion) => return expansion ++ suffix
    | none => refuse

/-- Reads the anchor and the tag in front of a node. -/
def properties : Parsing Properties := do
  match ← peek with
  | some (.anchor name) =>
    drop
    match ← peek with
    | some (.tag handle suffix) =>
      drop
      return ⟨some name, some (← expand handle suffix)⟩
    | _ => return ⟨some name, none⟩
  | some (.tag handle suffix) =>
    drop
    match ← peek with
    | some (.anchor name) =>
      drop
      return ⟨some name, some (← expand handle suffix)⟩
    | _ => return ⟨none, some (← expand handle suffix)⟩
  | _ => return ⟨none, none⟩

/-- The tag of a node, or the given one if it has none of its own. -/
def Properties.tagOr (p : Properties) (tag : Tag) : Tag :=
  match p.tag with
  | none => tag
  | some uri => if uri == ['!'] then tag else .ofUri uri

/-- Adds a node, and lets the anchor in front of it stand for it; it must be a new one. -/
def add (p : Properties) (n : Node) : Parsing Ref := do
  let s ← get
  let known := p.anchor.any fun name => s.anchors.any fun e => e.1 == name
  if known then refuse
  else
    let ref := s.nodes.size
    let named := p.anchor.map fun name => (name, ref)
    set { s with nodes := s.nodes.push n, anchors := named.toList ++ s.anchors }
    return ref

/-- Adds the node of a text. -/
def addText (p : Properties) (text : List Char) (plain : Bool) : Parsing Ref :=
  let isOpen := (plain && p.tag.isNone) || p.tag == some ['!']
  add p ⟨if isOpen then Plain.tag text else p.tagOr .str, .text text⟩

/-- Adds a node, reads what it holds, and puts that into it. -/
def addHolding (p : Properties) (tag : Tag) (content : Parsing Body) : Parsing Ref := do
  let ref ← add p ⟨p.tagOr tag, .items []⟩
  modify fun s => { s with around := ref :: s.around }
  let body ← content
  modify fun s => { s with nodes := s.nodes.setBody ref body, around := s.around.drop 1 }
  return ref

/-- The node of an anchor. -/
def named (name : List Char) : Parsing Ref := do
  match (← get).anchors.find? fun e => e.1 == name with
  | some (_, ref) =>
    modify fun s => { s with looped := s.looped || s.around.contains ref }
    return ref
  | none => refuse

/-- Adds the node of nothing. -/
def addEmpty : Parsing Ref := add ⟨none, none⟩ ⟨.null, .text []⟩

/-- A node without any content: only if it has an anchor or a tag. -/
def addMissing (p : Properties) : Parsing Ref :=
  if p.anchor.isSome || p.tag.isSome then addText p [] p.tag.isNone else refuse

/-! ## Nodes -/

/-- Where the tokens of a node may start, in which kinds of blocks, and how many more nodes may
stand inside one another there. -/
structure Place where
  block : Bool
  /-- A sequence may stand at the column of the mapping around it. -/
  indentless : Bool
  room : Nat

/-- The most nodes around another one that are read. -/
def maxDepth : Nat := 480

def Place.inBlock (room : Nat) : Place := ⟨true, false, room⟩

def Place.inMapping (room : Nat) : Place := ⟨true, true, room⟩

def Place.inBrackets (room : Nat) : Place := ⟨false, false, room⟩

mutual

/-- Reads a node. -/
def node : Nat → Place → Parsing Ref
  | 0, _ => refuse
  | fuel + 1, place => do
    match ← peek with
    | some (.alias name) =>
      drop
      named name
    | _ => content fuel place (← properties)

/-- Reads what follows the anchor and the tag of a node. -/
def content : Nat → Place → Properties → Parsing Ref
  | 0, _, _ => refuse
  | fuel + 1, place, p => do
    match ← peek, place.room with
    | some (.scalar text plain), _ =>
      drop
      addText p text plain
    | some .flowSequenceStart, room + 1 =>
      addHolding p .seq do
        drop
        return .items (← flowItems fuel room true)
    | some .flowMappingStart, room + 1 =>
      addHolding p .map do
        drop
        return .entries (← flowEntries fuel room true)
    | some .entry, room + 1 =>
      if place.indentless then addHolding p .seq do return .items (← items fuel room true)
      else addMissing p
    | some .sequenceStart, room + 1 =>
      if place.block then
        addHolding p .seq do
          drop
          return .items (← items fuel room false)
      else addMissing p
    | some .mappingStart, room + 1 =>
      if place.block then
        addHolding p .map do
          drop
          return .entries (← entries fuel room)
      else addMissing p
    | some .flowSequenceStart, 0 => throw .tooDeep
    | some .flowMappingStart, 0 => throw .tooDeep
    | some .entry, 0 => if place.indentless then throw .tooDeep else addMissing p
    | some .sequenceStart, 0 => if place.block then throw .tooDeep else addMissing p
    | some .mappingStart, 0 => if place.block then throw .tooDeep else addMissing p
    | _, _ => addMissing p

/-- Reads the items of a block sequence. One without indentation has no end of its own. -/
def items : Nat → Nat → Bool → Parsing (List Ref)
  | 0, _, _ => refuse
  | fuel + 1, room, indentless => do
    match ← peek with
    | some .entry =>
      drop
      let item ← match ← peek with
        | some .entry => addEmpty
        | some .blockEnd => addEmpty
        | some .key => if indentless then addEmpty else node fuel (.inBlock room)
        | some .value => if indentless then addEmpty else node fuel (.inBlock room)
        | _ => node fuel (.inBlock room)
      let rest ← items fuel room indentless
      return item :: rest
    | _ =>
      if indentless then return []
      else
        expect .blockEnd
        return []

/-- Reads the key or the value of a block mapping behind its indicator. -/
def part : Nat → Nat → Parsing Ref
  | 0, _ => refuse
  | fuel + 1, room => do
    match ← peek with
    | some .key => addEmpty
    | some .value => addEmpty
    | some .blockEnd => addEmpty
    | _ => node fuel (.inMapping room)

/-- Reads the entries of a block mapping. -/
def entries : Nat → Nat → Parsing (List (Ref × Ref))
  | 0, _ => refuse
  | fuel + 1, room => do
    match ← peek with
    | some .key =>
      drop
      let key ← part fuel room
      let value ← match ← peek with
        | some .value =>
          drop
          part fuel room
        | _ => addEmpty
      let rest ← entries fuel room
      return (key, value) :: rest
    | _ =>
      expect .blockEnd
      return []

/-- Reads the value behind a key inside brackets; `close` is the bracket at the end. -/
def flowValue : Nat → Nat → Token → Parsing Ref
  | 0, _, _ => refuse
  | fuel + 1, room, close => do
    if (← peek) = some .value then
      drop
      let next ← peek
      if next = some .comma ∨ next = some close then addEmpty else node fuel (.inBrackets room)
    else addEmpty

/-- Reads the key behind its indicator inside brackets; `close` is the bracket at the end. -/
def flowKey : Nat → Nat → Token → Parsing Ref
  | 0, _, _ => refuse
  | fuel + 1, room, close => do
    let next ← peek
    if next = some .value ∨ next = some .comma ∨ next = some close then addEmpty
    else node fuel (.inBrackets room)

/-- Reads the items of a sequence in brackets. A key makes an item a mapping with one entry. -/
def flowItems : Nat → Nat → Bool → Parsing (List Ref)
  | 0, _, _ => refuse
  | fuel + 1, room, first => do
    if (← peek) = some .flowSequenceEnd then
      drop
      return []
    else
      if !first then expect .comma
      match ← peek with
      | some .flowSequenceEnd =>
        drop
        return []
      | some .key =>
        let item ← addHolding ⟨none, none⟩ .map do
          drop
          let key ← flowKey fuel room .flowSequenceEnd
          let value ← flowValue fuel room .flowSequenceEnd
          return .entries [(key, value)]
        let rest ← flowItems fuel room false
        return item :: rest
      | _ =>
        let item ← node fuel (.inBrackets room)
        let rest ← flowItems fuel room false
        return item :: rest

/-- Reads the entries of a mapping in brackets. -/
def flowEntries : Nat → Nat → Bool → Parsing (List (Ref × Ref))
  | 0, _, _ => refuse
  | fuel + 1, room, first => do
    if (← peek) = some .flowMappingEnd then
      drop
      return []
    else
      if !first then expect .comma
      match ← peek with
      | some .flowMappingEnd =>
        drop
        return []
      | some .key =>
        drop
        let key ← flowKey fuel room .flowMappingEnd
        let value ← flowValue fuel room .flowMappingEnd
        let rest ← flowEntries fuel room false
        return (key, value) :: rest
      | _ =>
        let key ← node fuel (.inBrackets room)
        let value ← addEmpty
        let rest ← flowEntries fuel room false
        return (key, value) :: rest

end

/-! ## Documents -/

/-- Reads directives. There is at most one version, which must be 1, and each handle is given
once. -/
def directives : Nat → Bool → List (List Char × List Char) → Parsing Bool
  | 0, _, _ => refuse
  | fuel + 1, versioned, handles => do
    match ← peek with
    | some (.version major) =>
      if versioned || major != 1 then refuse
      else
        drop
        directives fuel true handles
    | some (.handle name expansion) =>
      if handles.any fun e => e.1 == name then refuse
      else
        drop
        directives fuel versioned ((name, expansion) :: handles)
    | some .otherDirective =>
      drop
      directives fuel versioned handles
    | _ =>
      modify fun p => { p with handles := handles ++ standardHandles }
      return versioned

/-- Goes on behind the ends of documents. -/
def documentEnds : Nat → Parsing Unit
  | 0 => return
  | fuel + 1 => do
    if (← peek) = some .documentEnd then
      drop
      documentEnds fuel

/-- Reads a document behind its start. -/
def body (fuel : Nat) : Parsing Ref := do
  match ← peek with
  | none => addEmpty
  | some .documentStart => addEmpty
  | some .documentEnd => addEmpty
  | some (.version _) => addEmpty
  | some (.handle _ _) => addEmpty
  | some .otherDirective => addEmpty
  | _ => node fuel (.inBlock maxDepth)

/-- Reads the start of a document behind its directives. -/
def opened (fuel : Nat) : Parsing Ref := do
  let _ ← directives fuel false []
  expect .documentStart
  body fuel

/-- Reads the only document. Without any there is no node. -/
def single (fuel : Nat) : Parsing (Option Ref) := do
  match ← peek with
  | none => return none
  | first =>
    let isExplicit := match first with
      | some .documentStart => true
      | some (.version _) => true
      | some (.handle _ _) => true
      | some .otherDirective => true
      | _ => false
    let found ← if isExplicit then opened fuel else node fuel (.inBlock maxDepth)
    documentEnds fuel
    match ← peek with
    | none => return some found
    | some _ => refuse

end Parser

/-- The only document in a text: its nodes, the outermost one if there is a document, and whether a
node holds itself. -/
structure Parsed where
  nodes : Graph
  root : Option Ref
  looped : Bool

/-- Reads the only document in a text. -/
def Parsed.ofText (s : List Char) : Reading Parsed := do
  let lexer ← Lexer.ofText s
  let start : Parser := ⟨lexer, #[], [], Parser.standardHandles, [], false⟩
  let (root, parser) ← (Parser.single (32 * s.length + 64)).run start
  return ⟨parser.nodes, root, parser.looped⟩

end Octets.Yaml
