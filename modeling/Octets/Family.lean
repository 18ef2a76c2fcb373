import Octets.Transform.Apply
import Octets.Text.Lines
import Octets.Transform.Make

/-!
# Families of transforms

A family makes transforms: from arguments in the order of its constructor, or from a dictionary of
parameters. It is one of the kinds of this library or a plugin that a caller adds.

Before a dictionary is used, its keys are checked: `checkKeys` refuses every key that the family
does not accept, whatever else is wrong. Several keys may name one parameter; which of them counts
is decided by the family.
-/

namespace Octets

/-- A family of transforms. -/
inductive Family where
  | builtin (kind : Kind)
  | plugin (p : Plugin)

namespace Family

/-- The label of the family. -/
def label : Family → String
  | builtin k => k.label
  | plugin p => p.label

/-- The name of the family, as faults give it. -/
def name : Family → String
  | builtin k => k.name
  | plugin p => p.name

/-- One line about the family: the first of its documentation, or its label. -/
def summary : Family → String
  | builtin k => k.summary
  | plugin p =>
    match Text.Lines.split (Text.strip p.doc.toList) with
    | line :: _ => String.ofList line
    | [] => p.label

/-- The keys accepted in a parameter dictionary. -/
def accepted : Family → List String
  | builtin k => k.accepted
  | plugin p => p.parameters.map (·.name)

/-! ## Making transforms -/

/-- A transform from arguments in the order of the constructor. -/
def ofArguments (family : Family) (args : List Value) : Action Transform :=
  match family with
  | plugin p =>
    Action.reading fun _ => do
      if p.bare && !args.isEmpty then throw (.wrongKind (.arity (.takesNone p.label)))
      let values ← Parameter.bind (constructorOf p.label) 1 p.parameters args
      return .added p values
  | builtin k =>
    Action.reading fun contents => do
      match k, ← Parameter.bind (constructorOf k.label) 1 k.parameters args with
      | .bitwise, [second, mode] => Transform.makeBitwise contents second mode
      | .shift, [count, direction] => Transform.makeShift contents count direction
      | .concat, [second] => Transform.makeConcat contents second
      | .sort, [comparator] => Transform.makeSort comparator
      | .shuffle, [rng] => Transform.makeShuffle rng
      | .copy, [offset, length] => Transform.makeCopy contents offset length
      | .resize, [size] => Transform.makeResize contents size
      | .reverse, _ => return .reverse
      | _, _ => return .negate

/-- The keys of a dictionary that a family does not accept, in plain form and sorted. -/
def unknownKeys (contents : Nat → Bytes) (accepted : List String) (params : Dict) :
    Except Fault (List String) := do
  let isAccepted (key : Value) : Bool := accepted.any fun a => key.asText? = some a
  let unknown ← (params.filter fun e => !isAccepted e.1).mapM fun e => e.1.printed contents
  return unknown.mergeSort fun a b => decide (a ≤ b)

/-- Refuses keys that the family does not accept. -/
def checkKeys (contents : Nat → Bytes) (family : Family) (params : Dict) : Except Fault Unit := do
  let unknown ← unknownKeys contents family.accepted params
  if unknown.isEmpty then return ()
  else throw (.unusable (.unknownParameters unknown family.accepted) (some family.name))

/-- A shuffle by a generator, or by a new one for a seed. -/
def shuffleOf (params : Dict) : Action Transform := do
  let rng := Dict.get params "rng"
  let seed := Dict.get params "seed"
  if !rng.isNull then Action.reading fun _ => Transform.makeShuffle rng
  else if seed.isNull then Action.fail (.nullParameter "seed" (some "shuffle"))
  else
    let n ← Action.reading fun contents => Random.seedOf contents seed
    let (ref, s) := (← get).addGenerator (.ofSeed n)
    set s
    return .shuffle .twister ref

/-- A transform from a dictionary of parameters. -/
def ofParams (family : Family) (params : Dict) : Action Transform := do
  Action.reading fun contents => checkKeys contents family params
  match family with
  | plugin p =>
    Action.reading fun _ => do
      let values ← Parameter.bindNamed (constructorOf p.label) p.parameters params
      return .added p values
  | builtin k =>
    let value := Dict.get params
    match k with
    | .bitwise =>
      Action.reading fun contents => Transform.makeBitwise contents (value "second") (value "mode")
    | .negate => return .negate
    | .shift =>
      let count := (Dict.get? params "shift_count").getD (value "count")
      Action.reading fun contents => Transform.makeShift contents count (value "direction")
    | .concat => Action.reading fun contents => Transform.makeConcat contents (value "second")
    | .reverse => return .reverse
    | .sort =>
      match Dict.get? params "comparator" with
      | some comparator => Action.reading fun _ => Transform.makeSort comparator
      | none =>
        let descending := (value "descending").holds (← get).bytes
        return .sort (if descending then some .descending else none)
    | .shuffle => shuffleOf params
    | .copy =>
      let offset := (Dict.get? params "offset").getD (.int 0)
      Action.reading fun contents => Transform.makeCopy contents offset (value "length")
    | .resize =>
      let size := (Dict.get? params "new_size").getD (value "size")
      Action.reading fun contents => Transform.makeResize contents size

/-- A transform from a value that should be a dictionary of parameters. The items of any other value
are checked as keys before it is refused. -/
def ofValue (family : Family) (params : Value) : Action Transform :=
  match params with
  | .dict params => family.ofParams params
  | params => do
    Action.reading fun contents => do
      let keys ← params.items contents
      checkKeys contents family (keys.map fun key => (key, .null))
    Action.fail (.noAttribute params.kind "get")

end Family

end Octets
