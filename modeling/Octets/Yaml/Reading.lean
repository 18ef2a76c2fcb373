import Octets.Fault

/-!
# Reading

Reading a document ends with a result or with a fault. A document that is not well formed is one
fault, whatever is wrong with it.
-/

namespace Octets.Yaml

/-- A reader of a part of a document. -/
abbrev Reading := Except Fault

/-- The document is not well formed. -/
def malformed {α : Type} : Reading α := .error .markup

/-- A result that a well-formed document has. -/
def require {α : Type} : Option α → Reading α
  | some a => .ok a
  | none => malformed

end Octets.Yaml
