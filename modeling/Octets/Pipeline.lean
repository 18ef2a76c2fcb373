import Octets.Registry

/-!
# Pipelines

A pipeline is a sequence of steps, each the name of a transform with parameters. It is applied in
three stages: all steps are read, all transforms are built, and only then is the first one applied.
So nothing is written before every step has been found good.

The first step works in place if that is asked. Every later step is given a buffer that belongs to
the pipeline, and works in place.
-/

namespace Octets

/-- A step of a pipeline. -/
structure Step where
  name : Value
  params : Value

namespace Step

/-- Reads a step: a name alone, or a dictionary with a name and parameters. Parameters that hold
nothing are none. -/
def ofValue (contents : Nat → Bytes) (v : Value) : Except Fault Step :=
  match v.asText?, v.opened with
  | some _, v => .ok ⟨v, .dict []⟩
  | none, .dict entries =>
    let params := Dict.get entries "params"
    .ok ⟨Dict.get entries "name", if params.holds contents then params else .dict []⟩
  | none, _ => .error (.badValue .entryKind)

/-- The step as a dictionary. -/
def toValue (s : Step) : Value := .dict [(.text "name", s.name), (.text "params", s.params)]

end Step

namespace Pipeline

/-- Reads the steps of a sequence. -/
def steps (contents : Nat → Bytes) (transforms : Value) : Except Fault (List Step) := do
  let entries ← transforms.items contents
  entries.mapM (Step.ofValue contents)

/-- Builds the transforms of the steps, in order. -/
def build (r : Registry) : List Step → Action (List (Value × Transform))
  | [] => return []
  | s :: rest => do
    let transform ← r.build s.name s.params
    let rest ← build r rest
    return (s.name, transform) :: rest

/-- Applies one transform and enters it into the journal. -/
def applyStep (name : Value) (t : Transform) (v : Value) (inPlace : Bool) : Action Nat := do
  let before ← Action.reading fun contents => v.length contents
  let ref ← t.apply v inPlace
  let s ← get
  let description ← Action.reading fun contents => t.describe contents
  Action.record ⟨s.display name, description, before, (s.bytes ref).length, v.isBuffer ref⟩
  return ref

/-- Applies transforms one after the other, each to the result of the one before it. -/
def applyFrom (ref : Nat) : List (Value × Transform) → Action Nat
  | [] => return ref
  | (name, t) :: rest => do
    let ref ← applyStep name t (.buffer ref) true
    applyFrom ref rest

/-- Applies transforms to a value. With none to apply, the value itself or a copy is the result. -/
def applyAll (data : Value) (inPlace : Bool) : List (Value × Transform) → Action Nat
  | [] =>
    match data, inPlace with
    | .buffer ref, true => return ref
    | data, _ => Action.toBuffer data
  | (name, t) :: rest => do
    let ref ← applyStep name t data inPlace
    applyFrom ref rest

/-- Applies the pipeline that `transforms` describes to `data`, and gives the buffer with the
result. -/
def run (r : Registry) (data transforms : Value) (inPlace : Bool) : Action Nat := do
  if data.isNull then Action.fail (.nullParameter "data" none)
  else
    let steps ← Action.reading fun contents => steps contents transforms
    let transforms ← build r steps
    applyAll data inPlace transforms

/-- Applies one transform to `data`. -/
def runOne (r : Registry) (data name params : Value) (inPlace : Bool) : Action Nat := do
  let held := params.holds (← get).bytes
  let entry := Step.mk name (if held then params else .dict [])
  run r data (.list [entry.toValue]) inPlace

end Pipeline

end Octets
