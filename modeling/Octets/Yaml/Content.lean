import Octets.Listing
import Octets.Yaml.Leaf
import Octets.Yaml.Merge

/-!
# Contents

What the nodes of a document stand for, with numbers of nodes in place of the values inside.

A leaf is known at once. A sequence or a mapping is begun empty and filled later, when all that were
begun before it are filled; so of several flaws the one in the part that is filled first decides.
Sequences, mappings and sets cannot be keys, and it does not count for that what is in them. Of two
entries with equal keys the later one counts, at the place of the first.
-/

namespace Octets.Yaml

/-- A key of a mapping: its value, and a number that equal values share only if they are one
object. -/
structure Key where
  value : Value
  object : Nat

namespace Key

/-- Are two keys one? A NaN is only if it is the same object. -/
def same (a b : Key) : Bool :=
  match a.value, b.value with
  | .float x, .float y => if x.isNaN && y.isNaN then a.object == b.object else x == y
  | v, w => v.same w

/-- Sets the value at a key. A key that is present keeps its place and its own form. -/
def put : List (Key × Ref) → Key → Ref → List (Key × Ref)
  | [], key, v => [(key, v)]
  | (k, w) :: rest, key, v => if k.same key then (k, v) :: rest else (k, w) :: put rest key v

end Key

/-- What a node stands for. -/
inductive Content where
  | leaf (key : Key)
  | list (items : List Ref)
  /-- A list of pairs. -/
  | pairs (entries : List (Ref × Ref))
  | dict (entries : List (Key × Ref))
  | set (members : List Value)

/-- The nodes, what they stand for as far as it is known, and the numbers of those that are begun
but not filled, the newest first. -/
structure Builder where
  nodes : Graph
  contents : Array (Option Content)
  begun : List Ref

/-- A step of building that may be refused. -/
abbrev Building := StateT Builder Reading

namespace Building

/-- The content of a node. -/
def content (ref : Ref) (c : Content) : Building Unit :=
  modify fun s => { s with contents := s.contents.setIfInBounds ref (some c) }

/-- The number of the one NaN that its word stands for. -/
def nanObject : Nat := 0

/-- The content of a node that holds no others. -/
def leaf (ref : Ref) : Building Content := do
  let s ← get
  let v ← Leaf.value s.nodes ref
  return .leaf ⟨v, if Leaf.isNanWord s.nodes ref then nanObject else ref + 1⟩

/-- The content of a node as it is begun. -/
def start (ref : Ref) : Building Content := do
  let empty? : Option Content := match ((← get).nodes.node ref).tag with
    | .seq => some (.list [])
    | .omap => some (.pairs [])
    | .pairs => some (.pairs [])
    | .map => some (.dict [])
    | .set => some (.set [])
    | _ => none
  match empty? with
  | none => leaf ref
  | some c =>
    modify fun s => { s with begun := ref :: s.begun }
    return c

/-- Begins a node, if it is not begun. -/
def begin (ref : Ref) : Building Content := do
  match (← get).contents.getD ref none with
  | some c => return c
  | none =>
    let c ← start ref
    content ref c
    return c

/-! ## Filling -/

/-- Begins the keys and the values of entries, in order. -/
def entries (found : List (Key × Ref)) : List (Ref × Ref) → Building (List (Key × Ref))
  | [] => return found
  | (k, v) :: rest => do
    match ← begin k with
    | .leaf key =>
      let _ ← begin v
      entries (Key.put found key v) rest
    | _ => throw .markup

/-- Flattens a mapping and begins its entries. -/
def mapping (ref : Ref) : Building (List (Key × Ref)) := do
  let s ← get
  let nodes ← s.nodes.flatten ref
  set { s with nodes := nodes }
  match (nodes.node ref).body with
  | .entries pairs => entries [] pairs
  | _ => throw .markup

/-- Begins the parts of an item of a list of pairs: a mapping with one entry. -/
def pair (ref : Ref) : Building (Ref × Ref) := do
  match ((← get).nodes.node ref).body with
  | .entries [(k, v)] =>
    let _ ← begin k
    let _ ← begin v
    return (k, v)
  | _ => throw .markup

/-- Fills a node that is begun. -/
def fill (ref : Ref) : Building Unit := do
  let node := (← get).nodes.node ref
  match node.tag, node.body with
  | .seq, .items refs =>
    refs.forM fun item => do
      let _ ← begin item
    content ref (.list refs)
  | .omap, .items refs => content ref (.pairs (← refs.mapM pair))
  | .pairs, .items refs => content ref (.pairs (← refs.mapM pair))
  | .map, .entries _ => content ref (.dict (← mapping ref))
  | .set, .entries _ =>
    let members := (← mapping ref).map fun e => e.1.value
    content ref (.set (Listing.order members))
  | _, _ => throw .markup

/-- Fills the nodes that are begun, and those that are begun by that, in order. Every round begins a
new node or is the last, so the number of nodes bounds the rounds. -/
def fillAll : Nat → Building Unit
  | 0 => return
  | fuel + 1 => do
    let begun := (← get).begun.reverse
    modify fun s => { s with begun := [] }
    begun.forM fill
    if begun.isEmpty then return else fillAll fuel

/-- Builds all that a node stands for. -/
def all (ref : Ref) : Building Unit := do
  let _ ← begin ref
  fillAll ((← get).nodes.size + 1)

end Building

/-- What the nodes of a document stand for, as far as they are in its outermost one. -/
def Graph.contents (g : Graph) (root : Ref) : Reading (Array (Option Content)) :=
  ((Building.all root).run ⟨g, Array.replicate g.size none, []⟩).map fun (_, s) => s.contents

end Octets.Yaml
