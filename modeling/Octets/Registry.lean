import Octets.Family

/-!
# The registry

Names of transforms, each with a family and default parameters, in the order in which the names
first came. Registering a name again replaces its family and defaults at its place.

`build` puts the given parameters over the defaults and makes the transform. Parameters may be a
dictionary or a sequence of pairs; anything else is refused by `pairsOf`.
-/

namespace Octets

/-- A registered name. -/
structure Registration where
  name : String
  family : Family
  defaults : Dict

/-- The registered names, in the order in which they first came. -/
abbrev Registry := List Registration

/-! ## Parameter dictionaries -/

namespace Dict

/-- One item of a sequence of pairs; `index` is its place. -/
def pairOf (contents : Nat → Bytes) (index : Nat) (item : Value) : Except Fault (Value × Value) :=
  match item.items? contents with
  | none => .error (.wrongKind (.notPair index))
  | some [key, v] =>
    match key.unhashable? with
    | some kind => .error (.wrongKind (.unhashable kind))
    | none => .ok (key, v)
  | some items => .error (.badValue (.pairLength index items.length))

/-- The items of a sequence of pairs, from the place `index` on. -/
def pairsFrom (contents : Nat → Bytes) (index : Nat) :
    List Value → Except Fault (List (Value × Value))
  | [] => .ok []
  | item :: rest => do
    let pair ← pairOf contents index item
    let rest ← pairsFrom contents (index + 1) rest
    return pair :: rest

/-- The entries of a dictionary or of a sequence of pairs. -/
def pairsOf (contents : Nat → Bytes) (v : Value) : Except Fault (List (Value × Value)) :=
  match v.opened with
  | .dict entries => .ok entries
  | v => do
    let items ← v.items contents
    pairsFrom contents 0 items

/-- Sets the entries of a value, if it holds any, over a dictionary. -/
def update (contents : Nat → Bytes) (d : Dict) (v : Value) : Except Fault Dict :=
  if v.holds contents then (pairsOf contents v).map fun pairs => Dict.putAll d pairs else .ok d

end Dict

/-! ## Registering -/

namespace Registry

/-- The names of this library. -/
def builtin : Registry :=
  let mode (m : Mode) : Dict := [(.text "mode", .text m.word)]
  let direction (d : Direction) : Dict := [(.text "direction", .text d.word)]
  [⟨"and", .builtin .bitwise, mode .and⟩,
    ⟨"or", .builtin .bitwise, mode .or⟩,
    ⟨"xor", .builtin .bitwise, mode .xor⟩,
    ⟨"not", .builtin .negate, []⟩,
    ⟨"shift_left", .builtin .shift, direction .left⟩,
    ⟨"shift_right", .builtin .shift, direction .right⟩,
    ⟨"concat", .builtin .concat, []⟩,
    ⟨"reverse", .builtin .reverse, []⟩,
    ⟨"sort", .builtin .sort, []⟩,
    ⟨"shuffle", .builtin .shuffle, []⟩,
    ⟨"copy", .builtin .copy, []⟩,
    ⟨"resize", .builtin .resize, []⟩]

/-- The registered names, in the order in which they first came. -/
def names (r : Registry) : List String := r.map (·.name)

/-- Registers a name, at the place it has already or at the end. -/
def register : Registry → String → Family → Dict → Registry
  | [], name, family, defaults => [⟨name, family, defaults⟩]
  | entry :: rest, name, family, defaults =>
    if entry.name = name then ⟨name, family, defaults⟩ :: rest
    else entry :: register rest name family defaults

/-- The registration of a text. -/
def find? (r : Registry) (name : String) : Option Registration :=
  List.find? (fun e => e.name = name) r

/-- The registration that a value names. -/
def lookup (r : Registry) (contents : Nat → Bytes) (name : Value) : Except Fault Registration :=
  match name.unhashable?, name.asText?.bind r.find? with
  | some kind, _ => .error (.wrongKind (.unhashable kind))
  | none, some entry => .ok entry
  | none, none => do
    let text ← name.printed contents
    throw (.unknownTransform name text)

/-! ## Building -/

/-- The transform registered under a name, from parameters set over the defaults. -/
def build (r : Registry) (name params : Value) : Action Transform := do
  let entry ← Action.reading fun contents => r.lookup contents name
  let merged ← Action.reading fun contents => Dict.update contents entry.defaults params
  entry.family.ofParams merged

/-- What a transform does. Without parameters only its family is described. -/
def describe (r : Registry) (name params : Value) : Action String := do
  if params.isNull then
    let entry ← Action.reading fun contents => r.lookup contents name
    return entry.family.summary
  else
    let transform ← r.build name params
    Action.reading fun contents => transform.describe contents

end Registry

/-! ## Extension points -/

/-- A published extension: a name, and the family it stands for if it is one. -/
structure Extension where
  name : String
  family : Option Family

namespace Registry

/-- Registers the extensions that are families, in order. -/
def extend (r : Registry) (extensions : List Extension) : Registry :=
  extensions.foldl
    (fun r e => match e.family with
      | some family => r.register e.name family []
      | none => r)
    r

end Registry

/-- The extensions that are no families, as warnings. -/
def Extension.warnings (extensions : List Extension) : List String :=
  extensions.filterMap fun e =>
    match e.family with
    | some _ => none
    | none => some ("ignoring entry point " ++ e.name ++ ": not a TransformPlugin subclass")

end Octets
