import Octets.Yaml.Node
import Octets.Yaml.Reading

/-!
# Merging mappings

A mapping may take over the entries of others by the merge key. `flatten` puts them in front of its
own entries, where later ones of equal keys count, and flattens the others before. Of a sequence of
mappings the first counts most, so its entries come last.

Flattening changes the nodes for good: the merge keys are gone, and an equals sign that is a key
stands for itself. Each round takes one merge key out of the document, so their number bounds the
rounds, also where a mapping takes over itself.
-/

namespace Octets.Yaml

/-- A change of nodes that may be refused. -/
abbrev Merging := StateT Graph Reading

namespace Merging

/-- The entries of a mapping; any other node is refused. -/
def entriesOf (ref : Ref) : Merging (List (Ref × Ref)) := do
  match ((← get).node ref).body with
  | .entries pairs => return pairs
  | _ => throw .markup

/-- Takes the first merge key out of entries: its value, and the entries left. -/
def cutMerge? (g : Graph) : List (Ref × Ref) → Option (Ref × List (Ref × Ref))
  | [] => none
  | (key, v) :: rest =>
    if (g.node key).tag = .merge then some (v, rest)
    else (cutMerge? g rest).map fun (target, rest) => (target, (key, v) :: rest)

/-- Lets the equals signs among the keys stand for themselves. -/
def settleKeys (pairs : List (Ref × Ref)) : Merging Unit :=
  modify fun g =>
    pairs.foldl (fun g e => if (g.node e.1).tag = .value then g.setTag e.1 .str else g) g

mutual

/-- Puts the entries that a mapping takes over in front of its own. -/
def flatten : Nat → Ref → Merging Unit
  | 0, _ => throw .markup
  | fuel + 1, ref => do
    let taken ← takeAll fuel ref
    let own ← entriesOf ref
    settleKeys own
    modify fun g => g.setBody ref (.entries (taken ++ own))

/-- Takes the merge keys out of a mapping, and gives the entries that they take over. -/
def takeAll : Nat → Ref → Merging (List (Ref × Ref))
  | 0, _ => throw .markup
  | fuel + 1, ref => do
    match cutMerge? (← get) (← entriesOf ref) with
    | none => return []
    | some (target, rest) =>
      modify fun g => g.setBody ref (.entries rest)
      let taken ← takeFrom fuel target
      let more ← takeAll fuel ref
      return taken ++ more

/-- The entries of a mapping, or of a sequence of them. -/
def takeFrom : Nat → Ref → Merging (List (Ref × Ref))
  | 0, _ => throw .markup
  | fuel + 1, target => do
    match ((← get).node target).body with
    | .text _ => throw .markup
    | .entries _ =>
      flatten fuel target
      entriesOf target
    | .items refs =>
      let found ← refs.mapM fun ref => do
        let _ ← entriesOf ref
        flatten fuel ref
        entriesOf ref
      return found.reverse.flatten

end

/-- The number of merge keys in a table of nodes. -/
def count (g : Graph) : Nat :=
  g.foldl
    (fun n node => match node.body with
      | .entries pairs => n + (pairs.filter fun e => (g.node e.1).tag = .merge).length
      | _ => n)
    0

end Merging

/-- The table of nodes in which a mapping is flattened. -/
def Graph.flatten (g : Graph) (ref : Ref) : Reading Graph :=
  ((Merging.flatten (3 * Merging.count g + 3) ref).run g).map (·.2)

end Octets.Yaml
