import Octets.Parameter

/-!
# Reports from arguments

The reports that callers make themselves, from a code and arguments in order.
-/

namespace Octets

namespace Code

/-- The code's own kind of report, as faults name it. -/
def label : Code → String
  | general => "BytesTransformError"
  | nullParameter => "NullParameterError"
  | lengthMismatch => "LengthMismatchError"
  | outOfRange => "IndexOutOfRangeError"
  | unusable => "InvalidArgumentError"
  | unknownTransform => "UnknownTransformError"

/-- All codes. -/
def all : List Code :=
  [general, nullParameter, lengthMismatch, outOfRange, unusable, unknownTransform]

/-- The code with a label. -/
def ofLabel? (label : String) : Option Code := all.find? fun c => c.label = label

/-- The native kinds of error that a report with the code is one of too. -/
def natives : Code → List String
  | general => []
  | nullParameter => ["TypeError"]
  | lengthMismatch => ["ValueError"]
  | outOfRange => ["IndexError", "LookupError"]
  | unusable => ["ValueError"]
  | unknownTransform => ["KeyError", "LookupError"]

/-- The kinds of error that a report with the code is one of, besides its own kind. -/
def bases (code : Code) : List String := general.label :: code.natives

/-- A caller can tell every report but the general one by a native kind as well. -/
theorem natives_ne_nil_iff {code : Code} : code.natives ≠ [] ↔ code ≠ general := by
  cases code <;> simp [natives]

/-- The code whose constructor makes the reports: for some it is the general one. -/
def maker : Code → Code
  | outOfRange => general
  | unusable => general
  | code => code

/-- The parameters of a report with the code. -/
def parameters (code : Code) : List Parameter :=
  let transform : Parameter := .optional "transform" .null
  match code.maker with
  | nullParameter => [.required "parameter", transform]
  | lengthMismatch => [.required "expected", .required "actual", transform]
  | unknownTransform => [.required "name"]
  | _ => [.required "message", transform]

end Code

namespace Report

/-- The report for arguments that are bound to the parameters. -/
def ofValues (contents : Nat → Bytes) (code : Code) (values : List Value) : Report :=
  let value (i : Nat) : Value := values.getD i .null
  match code with
  | .nullParameter => nullParameter (value 0) (value 1)
  | .lengthMismatch => lengthMismatch (value 0) (value 1) (value 2)
  | .unknownTransform => unknownTransform (value 0) ((value 0).display contents)
  | code => stated code (value 0) (value 1)

/-- The report for arguments in order. -/
def ofArguments (contents : Nat → Bytes) (code : Code) (args : List Value) :
    Except Fault Report := do
  let values ← Parameter.bind (constructorOf code.maker.label) 1 code.parameters args
  return ofValues contents code values

end Report

end Octets
