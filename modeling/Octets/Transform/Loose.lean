import Octets.Operator
import Octets.Transform.Apply

/-!
# Loose transforms

A transform whose fields a caller has overwritten past all checks, so that there may be any values
in them. `Loose.settled?` is the transform that the fields make if each of them holds what it
should. The rest of this module is about those of which that is not true: how far they can still be
applied and described, and where they fail.
-/

namespace Octets

/-- A kind of transform with any values in its fields. -/
structure Loose where
  kind : Kind
  fields : Dict

namespace Loose

/-- The transform that the fields make, if each holds what it should. -/
def settled? (l : Loose) : Option Transform :=
  match l.kind, (l.fields.map (·.2) : List Value) with
  | .bitwise, [.bytes second, .mode m] => some (.bitwise second m)
  | .negate, _ => some .negate
  | .shift, [.int count, .direction d] => some (.shift count d)
  | .concat, [.bytes second] => some (.concat second)
  | .reverse, _ => some .reverse
  | .sort, [.null] => some (.sort none)
  | .sort, [.comparator c] => some (.sort (some c))
  | .shuffle, [.generator kind ref] => some (.shuffle kind ref)
  | .copy, [.int offset, .int length] => some (.copy offset length)
  | .resize, [.int size] => some (.resize size)
  | _, _ => none

/-- The value in a field. -/
def field (l : Loose) (name : String) : Value := Dict.get l.fields name

/-! ## Applying -/

/-- The mode in a field: a member, or a value that equals one. -/
def modeIn (contents : Nat → Bytes) (v : Value) : Except Fault Mode :=
  match v.unhashable?, Mode.all.find? fun m => v.asText? = some m.word with
  | some kind, _ => .error (.wrongKind (.unhashable kind))
  | none, some m => .ok m
  | none, none => do
    let shown ← v.quoted contents
    throw (.unusable (.unknownMode shown) (some "bitwise"))

/-- Combines with a second sequence of the same length, which must be a byte string if it is not
empty. -/
def applyBitwise (second mode : Value) (v : Value) (inPlace : Bool) : Action Nat := do
  let length ← Action.reading fun contents => v.length contents
  let expected ← Action.reading fun contents => second.length contents
  if length ≠ expected then Action.fail (.lengthMismatch expected length "bitwise")
  else
    let mode ← Action.reading fun contents => modeIn contents mode
    let ref ← Action.workspace v inPlace "bitwise"
    let bs ← Action.read ref
    if !bs.isEmpty then
      let other ← Action.reading fun contents => second.byteString contents
      Action.write ref (Bytes.combine mode bs other)
    return ref

/-- The bits that a number is shifted by; the shift itself fails by any that are not whole. -/
def shiftCount (contents : Nat → Bytes) (count : Value) (d : Direction) : Except Fault Int := do
  match count.asWhole? with
  | some n => return n
  | none =>
    let forward ← count.related contents .atLeast (.int 0)
    let operator := if forward = (d = .left) then "<<" else ">>"
    throw (.wrongKind (.notOperands operator "int" count.kind))

/-- Shifts in a direction, which must be a member, by a number of bits. -/
def applyShift (count direction : Value) (v : Value) : Action Nat := do
  let length ← Action.reading fun contents => v.length contents
  if length = 0 then Action.object .emptyNumber (some "shift")
  else
    let _ ← Action.reading fun contents => v.toNumber contents
    match direction with
    | .direction d =>
      let count ← Action.reading fun contents => shiftCount contents count d
      Transform.applyShift count d v
    | direction =>
      let shown ← Action.reading fun contents => direction.quoted contents
      Action.object (.unknownDirection shown) (some "shift")

/-- Sorts by what is no comparator, as far as nothing needs to be compared. -/
def applySort (comparator : Value) (v : Value) : Action Nat := do
  let values ← Action.reading fun contents => do
    let items ← v.items contents
    Transform.signedItems items
  if 2 ≤ values.length then Action.mismatch (.notCallable comparator.kind)
  else Action.allocate (values.map Bytes.ofSigned)

/-- Shuffles by what is no generator, as far as nothing needs to be drawn. -/
def applyShuffle (generator : Value) (v : Value) (inPlace : Bool) : Action Nat := do
  let ref ← Action.workspace v inPlace "shuffle"
  if 2 ≤ (← Action.read ref).length then Action.fail (.noAttribute generator.kind "randrange")
  else return ref

/-- Does the range with these bounds lie outside a buffer of this length? -/
def isOutside (contents : Nat → Bytes) (offset length last : Value) (size : Except Fault Nat) :
    Except Fault Bool := do
  if ← offset.isBelowZero contents then return true
  else if ← length.isBelowZero contents then return true
  else last.related contents .greater (.int (← size))

/-- Cuts out a range, whose bounds must be whole if it lies inside the buffer. -/
def applyCopy (offset length : Value) (v : Value) : Action Nat := do
  let bs ← Action.reading fun contents => do
    let last ← offset.plus contents length
    if ← isOutside contents offset length last (v.length contents) then
      let size ← v.length contents
      let first ← offset.printed contents
      let last ← last.printed contents
      let message :=
        "range [" ++ first ++ ", " ++ last ++ ") is out of bounds for length " ++ toString size
      throw (.reported (.stated .outOfRange (.text message) (.text "copy")))
    else
      match offset.asWhole?, last.asWhole? with
      | some first, some last => v.slice contents first.toNat last.toNat
      | _, _ => throw (.wrongKind .notIndex)
  Action.allocate bs

/-- Pads or cuts to a size, which must be whole if it is neither zero nor the size of the buffer. -/
def applyResize (size : Value) (v : Value) (inPlace : Bool) : Action Nat := do
  let length ← Action.reading fun contents => v.length contents
  match size, size.asWhole? with
  | _, some n => Transform.applyResize n v inPlace
  | .float x, none =>
    if size.same (.int length) then Transform.applyResize length v inPlace
    else if x < 0 then Action.object .negativeSize (some "resize")
    else if x == 0 then Action.allocate []
    else if ← Action.reading fun contents => size.related contents .greater (.int length) then
      Action.mismatch (.notConvertible "float" "bytearray")
    else
      let _ ← Action.reading fun contents => v.slice contents 0 0
      Action.mismatch .notIndex
  | size, none => Action.mismatch (.notOrdered "<" size.kind "int")

/-- Applies a transform to a value, as far as the fields allow it. -/
def apply (l : Loose) (v : Value) (inPlace : Bool) : Action Nat :=
  match l.settled?, l.kind with
  | some t, _ => t.apply v inPlace
  | none, .bitwise => applyBitwise (l.field "second") (l.field "mode") v inPlace
  | none, .shift => applyShift (l.field "shift_count") (l.field "direction") v
  | none, .concat => do
    Action.allocate
      (← Action.reading fun contents => Value.joined contents [v, l.field "second"])
  | none, .sort => applySort (l.field "comparator") v
  | none, .shuffle => applyShuffle (l.field "rng") v inPlace
  | none, .copy => applyCopy (l.field "offset") (l.field "length") v
  | none, .resize => applyResize (l.field "new_size") v inPlace
  | none, .negate => Transform.negate.apply v inPlace
  | none, .reverse => Transform.reverse.apply v inPlace

/-! ## Describing -/

/-- The name of the member in a field. -/
def memberName : Value → Except Fault String
  | .mode m => .ok m.label
  | .direction d => .ok d.label
  | v => .error (.noAttribute v.kind "name")

/-- The word of the member in a field. -/
def memberWord : Value → Except Fault String
  | .mode m => .ok m.word
  | .direction d => .ok d.word
  | v => .error (.noAttribute v.kind "value")

/-- What the transform does, in a sentence, as far as the fields allow one. -/
def describe (contents : Nat → Bytes) (l : Loose) : Except Fault String :=
  match l.settled?, l.kind with
  | some t, _ => t.describe contents
  | none, .bitwise => do
    let name ← memberName (l.field "mode")
    return "Bitwise " ++ name ++ " with a second buffer of the same length"
  | none, .shift => do
    let word ← memberWord (l.field "direction")
    let count ← (l.field "shift_count").printed contents
    return "Arithmetic " ++ word ++ " shift by " ++ count ++ " bits"
  | none, .concat => do
    let length ← (l.field "second").length contents
    return "Appends " ++ toString length ++ " bytes"
  | none, .copy => do
    let length ← (l.field "length").printed contents
    let offset ← (l.field "offset").printed contents
    return "Copies " ++ length ++ " bytes from offset " ++ offset
  | none, .resize => do
    let size ← (l.field "new_size").printed contents
    return "Resizes to " ++ size ++ " bytes, padding or truncating on the left"
  | none, .sort => .ok "Sorts bytes with a custom comparator"
  | none, .shuffle => .ok "Shuffles bytes with a seeded Fisher-Yates shuffle"
  | none, .negate => Transform.negate.describe contents
  | none, .reverse => Transform.reverse.describe contents

end Loose

/-! ## Transforms that may be overwritten -/

/-- A transform that has been made, whether overwritten since or not. -/
inductive Made where
  | sound (t : Transform)
  | loose (l : Loose)

namespace Made

/-- The name of the kind of transform. -/
def name : Made → String
  | sound t => t.name
  | loose l => l.kind.name

/-- The label of the kind of transform. -/
def label : Made → String
  | sound t => t.label
  | loose l => l.kind.label

/-- The fields of the transform with their values. -/
def fields : Made → Dict
  | sound t => t.fields
  | loose l => l.fields

/-- Is the transform equal to every other of its family with equal fields? -/
def comparable : Made → Bool
  | sound t => t.comparable
  | loose _ => true

/-- Equality of transforms: of one family, with equal fields. -/
def same (s t : Made) : Bool :=
  s.comparable && s.label == t.label && Value.same (.dict s.fields) (.dict t.fields)

def describe (contents : Nat → Bytes) : Made → Except Fault String
  | sound t => t.describe contents
  | loose l => l.describe contents

def apply (m : Made) (v : Value) (inPlace : Bool) : Action Nat :=
  match m with
  | sound t => t.apply v inPlace
  | loose l => l.apply v inPlace

/-- Fields in which one of them has another value; any other name changes nothing. -/
def overwrite (fields : Dict) (field : String) (v : Value) : Dict :=
  fields.map fun e => if e.1.asText? = some field then (e.1, v) else e

/-- The transform with another value in a field, past all checks. -/
def force (m : Made) (field : String) (v : Value) : Made :=
  let loosened (kind : Kind) (fields : Dict) : Made :=
    let l : Loose := ⟨kind, overwrite fields field v⟩
    match l.settled? with
    | some t => sound t
    | none => loose l
  match m with
  | loose l => loosened l.kind l.fields
  | sound (.added p values) =>
    sound (.added p (List.zipWith (fun q w => if q.name = field then v else w) p.parameters values))
  | sound t =>
    match t.kind? with
    | some kind => loosened kind t.fields
    | none => m

end Made

end Octets
