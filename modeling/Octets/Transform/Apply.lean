import Octets.Transform.Basic
import Octets.Transform.Order
import Octets.Transform.Rearrange

/-!
# Applying transforms

`Transform.apply` applies a transform to a value and gives the buffer with the result. Asked to work
in place, those whose result has the length of the input overwrite the buffer they are given and
return it; all others make a new buffer, whatever they are asked.

What a transform does to the bytes is in the functions before it: `Mode.combine`,
`Bytes.complement`, `Bytes.reverse`, `Bytes.shift` and `Bytes.resize`, the sorts and the shuffle.
-/

namespace Octets

/-! ## Bytes -/

/-- Two bytes combined bit by bit. -/
def Mode.combine : Mode → UInt8 → UInt8 → UInt8
  | and => (· &&& ·)
  | or => (· ||| ·)
  | xor => (· ^^^ ·)

/-- A shift in the direction by this many bits, as one to the left. -/
def Direction.toLeft : Direction → Int → Int
  | left, count => count
  | right, count => -count

namespace Bytes

/-- Every byte combined with the one at its place in the second string. -/
def combine (mode : Mode) (bs second : Bytes) : Bytes := List.zipWith mode.combine bs second

/-- Every bit inverted. -/
def complement (bs : Bytes) : Bytes := bs.map (~~~ ·)

/-- The bytes in reverse order, by swapping from both ends. -/
def swapReverse (bs : Bytes) : Bytes := (Rearrange.swapEnds bs.toArray).toList

/-- The number in the bytes times two to the power `amount`, rounded down, in its shortest form. -/
def shift (v amount : Int) : Bytes := ofInt (scale v amount)

/-- The bytes shuffled by a generator, and the generator behind. -/
def shuffle (bs : Bytes) (g : Random.Generator) : Bytes × Random.Generator :=
  let (a, g) := Rearrange.shuffle bs.toArray g
  (a.toList, g)

end Bytes

/-! ## Applying -/

namespace Transform

/-- A shift to the left by this many bits needs more digits than can be counted. -/
def maxShift : Int := 30 * 0x8000000000000000

/-- Overwrites the workspace for `v` by a function of its bytes. -/
def overwriteWith (name : String) (v : Value) (inPlace : Bool) (f : Bytes → Bytes) :
    Action Nat := do
  let ref ← Action.workspace v inPlace name
  Action.write ref (f (← Action.read ref))
  return ref

/-- Combines with a second buffer of the same length. -/
def applyBitwise (second : Bytes) (mode : Mode) (v : Value) (inPlace : Bool) : Action Nat := do
  let length ← Action.reading fun contents => v.length contents
  if length ≠ second.length then
    Action.fail (.lengthMismatch second.length length "bitwise")
  else overwriteWith "bitwise" v inPlace fun bs => Bytes.combine mode bs second

/-- Shifts the number in the bytes. -/
def applyShift (count : Int) (direction : Direction) (v : Value) : Action Nat := do
  let length ← Action.reading fun contents => v.length contents
  if length = 0 then Action.object .emptyNumber (some "shift")
  else
    let number ← Action.reading fun contents => v.toNumber contents
    let amount := direction.toLeft count
    if number ≠ 0 ∧ maxShift ≤ amount then Action.fail (.overflow .digits)
    else Action.allocate (Bytes.shift number amount)

/-- The signed values of the items, which must be whole numbers. -/
def signedItems : List Value → Except Fault (List Int)
  | [] => .ok []
  | v :: rest => do
    let v ← v.toSigned
    let rest ← signedItems rest
    match v.asWhole? with
    | some n => return n :: rest
    | none => .error (.wrongKind (.notOperands "&" v.kind "int"))

/-- Sorts by a comparator into a new buffer. -/
def applySortBy (c : Comparator) (v : Value) : Action Nat := do
  let values ← Action.reading fun contents => do
    let items ← v.items contents
    signedItems items
  let values ← Action.ofExcept (fun message => .badValue (.refused message)) (c.sort values)
  Action.allocate (values.map Bytes.ofSigned)

/-- Shuffles a buffer of the store by the generator with a number, and puts the generator behind in
its place. -/
def shuffleBuffer (generator ref : Nat) (s : Store) : Store :=
  match s.generators[generator]? with
  | none => s
  | some g =>
    let (bs, g) := Bytes.shuffle (s.bytes ref) g
    { s.overwrite ref bs with generators := s.generators.set generator g }

/-- Shuffles by the generator with a number. -/
def applyShuffle (generator : Nat) (v : Value) (inPlace : Bool) : Action Nat := do
  let ref ← Action.workspace v inPlace "shuffle"
  modify (shuffleBuffer generator ref)
  return ref

/-- Cuts out a range into a new buffer. -/
def applyCopy (offset length : Int) (v : Value) : Action Nat := do
  let size ← Action.reading fun contents => v.length contents
  if offset < 0 ∨ length < 0 ∨ size < offset + length then
    Action.fail (.ofRange offset (offset + length) size "copy")
  else
    Action.allocate (← Action.reading fun contents =>
      v.slice contents offset.toNat (offset + length).toNat)

/-- Pads with zeros, or cuts, on the left. -/
def applyResize (size : Int) (v : Value) (inPlace : Bool) : Action Nat := do
  let length ← Action.reading fun contents => v.length contents
  if (length : Int) = size then
    match v, inPlace with
    | .buffer ref, true => return ref
    | v, _ => Action.toBuffer v
  else if size < 0 then Action.object .negativeSize (some "resize")
  else if size = 0 then Action.allocate []
  else if length < size then
    if Value.maxLength < size - length then Action.fail (.overflow .size)
    else
      let bs ← Action.reading fun contents => Value.joined contents [v]
      Action.allocate (List.replicate (size.toNat - length) 0 ++ bs)
  else
    Action.allocate (← Action.reading fun contents => v.slice contents (length - size.toNat) length)

/-- Applies a transform to a value, in place if that is asked and possible, and gives the buffer
with the result. -/
def apply (t : Transform) (v : Value) (inPlace : Bool) : Action Nat :=
  match t with
  | bitwise second mode => applyBitwise second mode v inPlace
  | negate => overwriteWith "not" v inPlace Bytes.complement
  | shift count direction => applyShift count direction v
  | concat second => do
    Action.allocate (← Action.reading fun contents => Value.joined contents [v, .bytes second])
  | reverse => overwriteWith "reverse" v inPlace Bytes.swapReverse
  | sort none => overwriteWith "sort" v inPlace Bytes.sort
  | sort (some c) => applySortBy c v
  | shuffle _ generator => applyShuffle generator v inPlace
  | copy offset length => applyCopy offset length v
  | resize size => applyResize size v inPlace
  | added p values => p.apply values v inPlace

end Transform

end Octets
