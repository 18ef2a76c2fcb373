import Octets.Json.Reader
import Octets.Pipeline
import Octets.Text.Split

/-!
# Assignments

A parameter as it is given on a command line: `NAME.KEY=VALUE`. The first equals sign ends the part
with the name and the key, and the first dot of that part ends the name; so a key may hold dots, and
a value both. Neither the name nor the key is empty.

An assignment sets the key in every step of its name. One that no step has the name of is refused,
so none is without effect.
-/

namespace Octets

/-- A value for a parameter of all steps of a name. -/
structure Assignment where
  name : String
  key : String
  /-- The value as it is written. -/
  raw : String
  deriving DecidableEq, Repr

namespace Assignment

/-- Reads an assignment. -/
def ofText? (s : String) : Option Assignment :=
  match Text.cut? '=' s.toList with
  | none => none
  | some (target, raw) =>
    match Text.cut? '.' target with
    | none => none
    | some (name, key) =>
      if name.isEmpty || key.isEmpty then none
      else some ⟨String.ofList name, String.ofList key, String.ofList raw⟩

/-- Reads an assignment, or refuses the text. -/
def ofText (s : String) : Except Fault Assignment :=
  match ofText? s with
  | some a => .ok a
  | none => .error (.option (.paramForm (Text.Quoted.string s)))

/-- The value: that of the text as a JSON document, or else the text. Only a document with values
too deep inside one another is refused. -/
def value (a : Assignment) : Except Fault Value :=
  match Json.read a.raw.toList with
  | .ok v => .ok v
  | .error (.tooDeep nest) => .error (.json (.tooDeep nest))
  | .error _ => .ok (.text a.raw)

/-- Is this the name of the step? -/
def isFor (a : Assignment) (s : Step) : Bool := s.name.asText? = some a.name

/-- Sets the parameter in a step to a value. -/
def setIn (a : Assignment) (v : Value) (s : Step) : Except Fault Step :=
  (Dict.pairsOf (fun _ => []) s.params).map fun pairs =>
    { s with params := .dict (Dict.put (Dict.ofPairs pairs) (.text a.key) v) }

/-- Sets the parameter in all steps of the name. -/
def apply (a : Assignment) (steps : List Step) : Except Fault (List Step) := do
  let v ← a.value
  if steps.any a.isFor then steps.mapM fun s => if a.isFor s then a.setIn v s else .ok s
  else throw (.option (.paramName (Text.Quoted.string a.name)))

/-- Reads and applies assignments, one after the other. -/
def applyAll (steps : List Step) (texts : List String) : Except Fault (List Step) :=
  texts.foldlM (fun steps s => (ofText s).bind fun a => a.apply steps) steps

end Assignment

end Octets
