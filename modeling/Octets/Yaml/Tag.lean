/-!
# Tags

A tag says what a node of a document stands for. The tags of the format have names behind a common
beginning; nothing is known of any other.
-/

namespace Octets.Yaml

/-- What a node stands for. -/
inductive Tag where
  | null
  | bool
  | int
  | float
  | binary
  | timestamp
  | omap
  | pairs
  | set
  | str
  | seq
  | map
  | merge
  | value
  /-- A tag that nothing is known of. -/
  | other
  deriving DecidableEq, Repr

namespace Tag

/-- What the tags of the format start with. -/
def standard : List Char := "tag:yaml.org,2002:".toList

/-- The tags of the format by name. -/
def names : List (String × Tag) :=
  [("null", null), ("bool", bool), ("int", int), ("float", float), ("binary", binary),
    ("timestamp", timestamp), ("omap", omap), ("pairs", pairs), ("set", set), ("str", str),
    ("seq", seq), ("map", map), ("merge", merge), ("value", value)]

/-- The tag of a full text. -/
def ofUri (uri : List Char) : Tag :=
  match names.find? fun e => standard ++ e.1.toList == uri with
  | some (_, tag) => tag
  | none => other

/-- Does the tag say what a text stands for? -/
def isScalar : Tag → Bool
  | null | bool | int | float | binary | timestamp | str => true
  | _ => false

end Tag

end Octets.Yaml
