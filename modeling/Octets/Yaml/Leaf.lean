import Octets.Text.Base64
import Octets.Yaml.Node
import Octets.Yaml.Number
import Octets.Yaml.Plain
import Octets.Yaml.Reading

/-!
# Leaves

The values of nodes that hold no others. The text of such a node is its own, or in a mapping that of
what stands at the equals sign; the tag says what the text stands for. A text that does not fit its
tag is refused, each kind in its own way.
-/

namespace Octets.Yaml

/-- The text of a node. One that is looked for in a node that holds itself is never found. -/
def Graph.text (g : Graph) : Nat → Ref → Reading (List Char)
  | 0, _ => .error .tooDeep
  | fuel + 1, ref =>
    match (g.node ref).body with
    | .text s => .ok s
    | .items _ => malformed
    | .entries pairs =>
      match pairs.find? fun e => (g.node e.1).tag = .value with
      | some (_, v) => text g fuel v
      | none => malformed

namespace Leaf

/-- The truth values by their words. -/
def truthValues : List (String × Bool) :=
  [("yes", true), ("no", false), ("true", true), ("false", false), ("on", true), ("off", false)]

/-- The truth value of a word in any case. -/
def bool (s : List Char) : Reading Bool :=
  let word := Text.lower s
  match truthValues.find? fun e => e.1.toList == word with
  | some (_, b) => .ok b
  | none => .error (.noEntry (Text.Quoted.string (String.ofList word)))

/-- The bytes that a text stands for. -/
def binary (s : List Char) : Reading Bytes :=
  if s.all fun c => c.toNat < 0x80 then require (Text.Base64.decode s) else malformed

/-- The moment that a text stands for. -/
def moment (s : List Char) : Reading Inert :=
  match Moment.ofText? (Plain.body s) with
  | none => .error (.noAttribute "NoneType" "groupdict")
  | some m => m.check.map fun _ => m.object

/-- The value of a text with a tag. -/
def ofText (tag : Tag) (s : List Char) : Reading Value :=
  match tag with
  | .null => return .null
  | .bool => .bool <$> bool s
  | .int => .int <$> Number.int s
  | .float => .float <$> Number.float s
  | .binary => .bytes <$> binary s
  | .timestamp => .inert <$> moment s
  | .str => return .text (String.ofList s)
  | _ => malformed

/-- The value of a node with a tag that holds no others. A tag that nothing is known of is refused
before any text is looked for, and a moment must be a text of its own. -/
def value (g : Graph) (ref : Ref) : Reading Value := do
  let node := g.node ref
  if node.tag.isScalar then
    let s ← g.text (g.size + 1) ref
    match node.tag, node.body with
    | .timestamp, .entries _ => throw (.wrongKind (.notText "list"))
    | tag, _ => ofText tag s
  else malformed

/-- Is the node a text that is the word for NaN? -/
def isNanWord (g : Graph) (ref : Ref) : Bool :=
  match g.text (g.size + 1) ref with
  | .ok s => (g.node ref).tag = .float && Number.isNanWord s
  | .error _ => false

end Leaf

end Octets.Yaml
