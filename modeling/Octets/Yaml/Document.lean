import Octets.Text.Lines
import Octets.Yaml.Content
import Octets.Yaml.Parsed

/-!
# Documents

The value of a document. Numbers of nodes are replaced by values: `valueOf` does so once for each
node of a document in which no node holds itself. In any other, every sequence and mapping becomes a
knot, and `unrolled` goes on as far as anything looks into a configuration, and then until a node
comes back.
-/

namespace Octets.Yaml

namespace Content

/-- The value of a content, if values are given for the nodes in it. -/
def assemble {m : Type → Type} [Monad m] (c : Content) (value : Ref → m Value) : m Value :=
  match c with
  | leaf key => return key.value
  | list refs => return .list (← refs.mapM value)
  | pairs found => do
    let items ← found.mapM fun (k, v) => do
      let key ← value k
      let v ← value v
      return Value.tuple [key, v]
    return .list items
  | dict found => do
    let items ← found.mapM fun (k, v) => do
      let v ← value v
      return (k.value, v)
    return .dict items
  | set members => return .set members

/-- The content without anything in it. -/
def emptied : Content → Value
  | leaf key => key.value
  | list _ => .list []
  | pairs _ => .list []
  | dict _ => .dict []
  | set members => .set members

/-- Can other values be in the content? -/
def isHolder : Content → Bool
  | leaf _ => false
  | set _ => false
  | _ => true

end Content

/-- The value of a node in a document where none holds itself. It is found once. -/
def valueOf (contents : Array (Option Content)) : Nat → Ref → StateM (Array (Option Value)) Value
  | 0, _ => return .null
  | fuel + 1, ref => do
    match (← get).getD ref none, contents.getD ref none with
    | some v, _ => return v
    | none, none => return .null
    | none, some c =>
      let v ← c.assemble (valueOf contents fuel)
      modify fun found => found.setIfInBounds ref (some v)
      return v

/-- How deep anything looks into a configuration: at the steps, at one of them, at its parameters,
at a pair of them, and at a value there. -/
def sight : Nat := 6

/-- The value of a node in a document where one holds itself; `around` are the nodes around it
beyond what is looked at, and `depth` counts those that are looked at and still to come. -/
def unrolled (contents : Array (Option Content)) : Nat → Nat → List Ref → Ref → Value
  | 0, _, _, _ => .null
  | fuel + 1, depth, around, ref =>
    match contents.getD ref none with
    | none => .null
    | some c =>
      if !c.isHolder then c.emptied
      else if around.contains ref then .knot ref c.emptied
      else
        let around := if depth = 0 then ref :: around else around
        let inside : Id Value :=
          c.assemble (m := Id) fun r => unrolled contents fuel (depth - 1) around r
        .knot ref inside

/-- The value of the only document in a text; null if there is none. -/
def document (s : List Char) : Reading Value := do
  let parsed ← Parsed.ofText s
  match parsed.root with
  | none => return .null
  | some root =>
    let contents ← parsed.nodes.contents root
    let size := contents.size
    if parsed.looped then return unrolled contents (size + sight + 2) sight [] root
    else return ((valueOf contents (size + 1) root).run (Array.replicate size none)).run.1

/-- A fault of the encoding, as it is found in a text that is read piece by piece: what is missing
at the end is found only there, and indices count from the start of what is left over. -/
def pieceFault (fault : Text.Utf8.Fault) : Text.Utf8.Fault :=
  if fault.flaw = .truncated then { fault with first := 0, last := fault.last - fault.first }
  else fault

/-- The value of the only document in a file. -/
def read (content : Bytes) : Reading Value :=
  match Text.Utf8.decode content with
  | .error fault => .error (.encoding (pieceFault fault))
  | .ok s => document (Text.Lines.normalize s)

end Octets.Yaml
