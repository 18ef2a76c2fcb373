import Octets.Source
import Octets.Transform.Kind

/-!
# Transforms

A transform is an immutable operation on a byte buffer, with its parameters already checked: nine
kinds of this library, and one for the transforms that callers add.
-/

namespace Octets

/-- A family of transforms that a caller adds: the names it goes by, what is said about it, the
parameters of its constructor, and what a transform does that has their values. -/
structure Plugin where
  label : String
  name : String
  doc : String
  /-- It has no constructor of its own, and takes no arguments. -/
  bare : Bool
  parameters : List Parameter
  /-- The values are visible fields: two transforms with equal ones are equal, and none can be
  assigned. -/
  isOpen : Bool
  describe : (Nat → Bytes) → List Value → Except Fault String
  apply : List Value → Value → Bool → Action Nat

/-- A transform. -/
inductive Transform where
  /-- Combines the buffer byte by byte with a second one. -/
  | bitwise (second : Bytes) (mode : Mode)
  /-- Complements every byte. -/
  | negate
  /-- Shifts the buffer as a signed number. -/
  | shift (count : Int) (direction : Direction)
  /-- Appends a second buffer. -/
  | concat (second : Bytes)
  /-- Reverses the order of the bytes. -/
  | reverse
  /-- Sorts the bytes, by signed value unless there is a comparator. -/
  | sort (comparator : Option Comparator)
  /-- Shuffles the bytes by the generator with this number. -/
  | shuffle (kind : GeneratorKind) (ref : Nat)
  /-- Cuts out a range. -/
  | copy (offset length : Int)
  /-- Pads or cuts the buffer on the left. -/
  | resize (size : Int)
  /-- Does what a plugin does with these values of its parameters. -/
  | added (plugin : Plugin) (values : List Value)

namespace Transform

/-- The kind of a transform of this library. -/
def kind? : Transform → Option Kind
  | bitwise .. => some .bitwise
  | negate => some .negate
  | shift .. => some .shift
  | concat _ => some .concat
  | reverse => some .reverse
  | sort _ => some .sort
  | shuffle .. => some .shuffle
  | copy .. => some .copy
  | resize _ => some .resize
  | added .. => none

/-- The name of the kind of transform, as faults and listings give it. -/
def name (t : Transform) : String :=
  match t.kind?, t with
  | some k, _ => k.name
  | none, added p _ => p.name
  | none, _ => ""

/-- The label of the kind of transform. -/
def label (t : Transform) : String :=
  match t.kind?, t with
  | some k, _ => k.label
  | none, added p _ => p.label
  | none, _ => ""

/-- The parameters of the transform, by the names of its fields. -/
def fields : Transform → Dict
  | bitwise second mode => [(.text "second", .bytes second), (.text "mode", .mode mode)]
  | negate => []
  | shift count direction =>
    [(.text "shift_count", .int count), (.text "direction", .direction direction)]
  | concat second => [(.text "second", .bytes second)]
  | reverse => []
  | sort comparator => [(.text "comparator", (comparator.map Value.comparator).getD .null)]
  | shuffle kind ref => [(.text "rng", .generator kind ref)]
  | copy offset length => [(.text "offset", .int offset), (.text "length", .int length)]
  | resize size => [(.text "new_size", .int size)]
  | added p values =>
    if p.isOpen then List.zipWith (fun q v => (.text q.name, v)) p.parameters values else []

/-- Is the transform equal to every other of its family with equal fields? -/
def comparable : Transform → Bool
  | added p _ => p.isOpen
  | _ => true

/-- Equality of transforms: of one family, with equal fields. -/
def same (s t : Transform) : Bool :=
  s.comparable && s.label == t.label && Value.same (.dict s.fields) (.dict t.fields)

/-! ## Descriptions -/

/-- What the transform does, in a sentence. -/
def describe (contents : Nat → Bytes) : Transform → Except Fault String
  | bitwise _ mode => .ok ("Bitwise " ++ mode.label ++ " with a second buffer of the same length")
  | negate => .ok "Bitwise NOT of every byte"
  | shift count direction => do
    let count ← integerText count
    return "Arithmetic " ++ direction.word ++ " shift by " ++ count ++ " bits"
  | concat second => .ok ("Appends " ++ toString second.length ++ " bytes")
  | reverse => .ok "Reverses the byte order"
  | sort none => .ok "Sorts bytes ascending by signed value"
  | sort (some _) => .ok "Sorts bytes with a custom comparator"
  | shuffle .. => .ok "Shuffles bytes with a seeded Fisher-Yates shuffle"
  | copy offset length => do
    let length ← integerText length
    let offset ← integerText offset
    return "Copies " ++ length ++ " bytes from offset " ++ offset
  | resize size => do
    let size ← integerText size
    return "Resizes to " ++ size ++ " bytes, padding or truncating on the left"
  | added p values => p.describe contents values

end Transform

end Octets
