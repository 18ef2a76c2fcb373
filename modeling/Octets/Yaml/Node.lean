import Octets.Yaml.Tag

/-!
# Nodes

A document as a table of nodes: texts, sequences and mappings, each with its tag. Nodes refer to
others by their numbers, and several may refer to one; a node may even hold itself.
-/

namespace Octets.Yaml

/-- The number of a node. -/
abbrev Ref := Nat

/-- What a node holds. -/
inductive Body where
  | text (s : List Char)
  | items (refs : List Ref)
  | entries (pairs : List (Ref × Ref))
  deriving DecidableEq, Repr

/-- A node of a document. -/
structure Node where
  tag : Tag
  body : Body
  deriving DecidableEq, Repr

/-- The nodes of a document by number. -/
abbrev Graph := Array Node

namespace Graph

/-- The node with a number. -/
def node (g : Graph) (ref : Ref) : Node := g.getD ref ⟨.other, .items []⟩

/-- Gives a node another body. -/
def setBody (g : Graph) (ref : Ref) (body : Body) : Graph :=
  g.setIfInBounds ref { g.node ref with body := body }

/-- Gives a node another tag. -/
def setTag (g : Graph) (ref : Ref) (tag : Tag) : Graph :=
  g.setIfInBounds ref { g.node ref with tag := tag }

end Graph

end Octets.Yaml
