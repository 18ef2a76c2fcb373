import Octets.Decimal.Limit
import Octets.Text.Quoted

/-!
# Values

What a caller, a configuration file or a command line can put into a parameter: plain data, the two
enumerations of the transforms, and references to objects that live in the store.

* Mutable buffers and generators are held by reference, all else by value, so a value never changes
  under its holder except through the store.
* `Value.same` is the equality by which keys are found: numbers compare across their kinds, and a
  member of an enumeration equals its text.
* `Value.shown` is the quoted form used inside messages, `Value.display` the plain one. Neither is
  given for a value with an integer of too many digits in it: `Value.isWritable` says whether there
  is none.
* A list or dictionary that holds itself is a `knot`: its content, unrolled as far as anything looks
  into it, under a number by which it is known inside itself.

The recursions are structural, over the nested lists of a value.
-/

namespace Octets

/-! ## Enumerations -/

/-- How two bytes are combined. -/
inductive Mode where
  | and
  | or
  | xor
  deriving DecidableEq, Repr

/-- Which way a number is shifted. -/
inductive Direction where
  | left
  | right
  deriving DecidableEq, Repr

namespace Mode

/-- The text that stands for the mode in parameters. -/
def word : Mode → String
  | and => "and"
  | or => "or"
  | xor => "xor"

/-- The member's own name. -/
def label : Mode → String
  | and => "AND"
  | or => "OR"
  | xor => "XOR"

def all : List Mode := [and, or, xor]

end Mode

namespace Direction

/-- The text that stands for the direction in parameters. -/
def word : Direction → String
  | left => "left"
  | right => "right"

/-- The member's own name. -/
def label : Direction → String
  | left => "LEFT"
  | right => "RIGHT"

def all : List Direction := [left, right]

end Direction

/-! ## Functions and objects -/

/-- An order on signed bytes that a caller supplies: negative if the first comes first, positive if
the second does. It may refuse with a message. The name is its identity. -/
structure Comparator where
  name : String
  compare : Int → Int → Except String Int

/-- The two kinds of random generator. -/
inductive GeneratorKind where
  /-- The seeded generator of this library. -/
  | twister
  /-- A generator that a caller supplies. -/
  | supplied
  deriving DecidableEq, Repr

/-- An object that no parameter can use: its kind, its two texts, and what tells it from others of
its kind. -/
structure Inert where
  kind : String
  shown : String
  display : String
  identity : String
  deriving DecidableEq, Repr

/-! ## Values -/

/-- A parameter value. -/
inductive Value where
  | null
  | bool (b : Bool)
  | int (n : Int)
  | float (x : Float)
  | text (s : String)
  /-- Immutable bytes. -/
  | bytes (bs : Bytes)
  /-- A read-only view of immutable bytes. -/
  | view (bs : Bytes)
  /-- The mutable buffer with this number in the store. -/
  | buffer (ref : Nat)
  | list (items : List Value)
  | tuple (items : List Value)
  /-- Keys with their values, in the order in which the keys first came. -/
  | dict (entries : List (Value × Value))
  /-- Keys without values, in the order in which they are listed. -/
  | set (items : List Value)
  /-- A list or dictionary that holds itself, by its number. -/
  | knot (number : Nat) (content : Value)
  | mode (m : Mode)
  | direction (d : Direction)
  | comparator (c : Comparator)
  /-- The generator with this number in the store. -/
  | generator (kind : GeneratorKind) (ref : Nat)
  | inert (o : Inert)

instance : Inhabited Value := ⟨.null⟩

namespace Value

/-- The name of the kind of value, as messages give it. -/
def kind : Value → String
  | null => "NoneType"
  | bool _ => "bool"
  | int _ => "int"
  | float _ => "float"
  | text _ => "str"
  | bytes _ => "bytes"
  | view _ => "memoryview"
  | buffer _ => "bytearray"
  | list _ => "list"
  | tuple _ => "tuple"
  | dict _ => "dict"
  | set _ => "set"
  | knot _ content => kind content
  | mode _ => "BitwiseMode"
  | direction _ => "ShiftDirection"
  | comparator _ => "function"
  | generator .twister _ => "Random"
  | generator .supplied _ => "ScriptedRng"
  | inert o => o.kind

/-- The value itself, taken out of its knot. -/
def opened : Value → Value
  | knot _ content => opened content
  | v => v

def isNull : Value → Bool
  | null => true
  | _ => false

/-- The text a value holds: a text itself, or the word of an enumeration member. -/
def asText? : Value → Option String
  | text s => some s
  | mode m => some m.word
  | direction d => some d.word
  | _ => none

/-- An integer that is no truth value. -/
def asInt? : Value → Option Int
  | int n => some n
  | _ => none

/-- The whole number of an integer or a truth value. -/
def asWhole? : Value → Option Int
  | int n => some n
  | bool b => some (if b then 1 else 0)
  | _ => none

/-! ## Keys and equality -/

/-- Is the floating-point number exactly the integer? -/
def floatIs (x : Float) (n : Int) : Bool :=
  if x.isNaN || x.isInf then false
  else
    let size := Decimal.Finite.ofBits x.toBits
    let whole := size.mantissa * Nat.pow 2 size.exponent.toNat
    let part := Nat.pow 2 (-size.exponent).toNat
    whole == n.natAbs * part && (n == 0 || Decimal.isNegative x == decide (n < 0))

mutual

/-- Equality of values. Numbers compare by amount, texts with enumeration members by their word,
buffers and generators by being the same object. -/
def same : Value → Value → Bool
  | null, null => true
  | bool a, b => sameWhole (if a then 1 else 0) b
  | int a, b => sameWhole a b
  | float x, float y => x == y
  | float x, b => match b.asWhole? with
    | some n => floatIs x n
    | none => false
  | text a, b => b.asText? == some a
  | mode a, b => b.asText? == some a.word
  | direction a, b => b.asText? == some a.word
  | bytes a, bytes b => a == b
  | bytes a, view b => a == b
  | view a, bytes b => a == b
  | view a, view b => a == b
  | buffer a, buffer b => a == b
  | list a, list b => sameAll a b
  | tuple a, tuple b => sameAll a b
  | dict a, dict b => a.length == b.length && sameEntries a b
  | set a, set b => a.length == b.length && sameMembers a b
  | knot a _, knot b _ => a == b
  | comparator a, comparator b => a.name == b.name
  | generator _ a, generator _ b => a == b
  | inert a, inert b => a.kind == b.kind && a.identity == b.identity
  | _, _ => false

/-- A whole number against any value. -/
def sameWhole (n : Int) : Value → Bool
  | int m => n == m
  | bool b => n == (if b then 1 else 0)
  | float x => floatIs x n
  | _ => false

/-- Equality of lists, item by item. -/
def sameAll : List Value → List Value → Bool
  | [], [] => true
  | a :: as, b :: bs => same a b && sameAll as bs
  | _, _ => false

/-- Does each entry have an equal one among the others? -/
def sameEntries : List (Value × Value) → List (Value × Value) → Bool
  | [], _ => true
  | (k, v) :: rest, others =>
    others.any (fun e => same k e.1 && same v e.2) && sameEntries rest others

/-- Does each member have an equal one among the others? -/
def sameMembers : List Value → List Value → Bool
  | [], _ => true
  | v :: rest, others => others.any (same v) && sameMembers rest others

end

mutual

/-- The kind that keeps a value from being a key, if there is one: lists, dictionaries, sets and
mutable buffers, also inside a tuple. -/
def unhashable? : Value → Option String
  | list _ => some "list"
  | dict _ => some "dict"
  | set _ => some "set"
  | knot _ content => some content.kind
  | buffer _ => some "bytearray"
  | tuple items => unhashableIn? items
  | _ => none

/-- The first such kind in a list. -/
def unhashableIn? : List Value → Option String
  | [] => none
  | v :: rest => (unhashable? v).or (unhashableIn? rest)

end

/-! ## Texts -/

/-- The word of a truth value. -/
def boolWord (b : Bool) : String := if b then "True" else "False"

/-- Texts with a comma and a blank between them. -/
def commas : List String → String
  | [] => ""
  | [s] => s
  | s :: rest => s ++ ", " ++ commas rest

/-- How a value is quoted inside itself: by its brackets. -/
def dots : Value → String
  | dict _ => "\x7b...\x7d"
  | _ => "[...]"

mutual

/-- The quoted form of a value inside the knots with the numbers `inside`; `contents` gives the
bytes of the buffers in the store. -/
def shownIn (contents : Nat → Bytes) (inside : List Nat) : Value → String
  | null => "None"
  | bool b => boolWord b
  | int n => Decimal.integerString n
  | float x => Decimal.Layout.plain.float x
  | text s => Text.Quoted.string s
  | bytes bs => Text.Quoted.bytes false bs
  | view _ => "<memory>"
  | buffer ref => "bytearray(" ++ Text.Quoted.bytes true (contents ref) ++ ")"
  | list items => "[" ++ commas (shownAll contents inside items) ++ "]"
  | tuple [item] => "(" ++ shownIn contents inside item ++ ",)"
  | tuple items => "(" ++ commas (shownAll contents inside items) ++ ")"
  | dict entries => "\x7b" ++ commas (shownEntries contents inside entries) ++ "\x7d"
  | set [] => "set()"
  | set items => "\x7b" ++ commas (shownAll contents inside items) ++ "\x7d"
  | knot number content =>
    if inside.contains number then dots content else shownIn contents (number :: inside) content
  | mode m => "<BitwiseMode." ++ m.label ++ ": '" ++ m.word ++ "'>"
  | direction d => "<ShiftDirection." ++ d.label ++ ": '" ++ d.word ++ "'>"
  | comparator c => "<function " ++ c.name ++ ">"
  | generator kind ref => "<" ++ (generator kind ref).kind ++ " object>"
  | inert o => o.shown

/-- The quoted forms of a list of values. -/
def shownAll (contents : Nat → Bytes) (inside : List Nat) : List Value → List String
  | [] => []
  | v :: rest => shownIn contents inside v :: shownAll contents inside rest

/-- The quoted forms of the entries of a dictionary. -/
def shownEntries (contents : Nat → Bytes) (inside : List Nat) : List (Value × Value) → List String
  | [] => []
  | (k, v) :: rest =>
    (shownIn contents inside k ++ ": " ++ shownIn contents inside v) ::
      shownEntries contents inside rest

end

/-- The quoted form of a value; `contents` gives the bytes of the buffers in the store. -/
def shown (contents : Nat → Bytes) (v : Value) : String := v.shownIn contents []

/-- The plain form of a value: a text as it is, a member by its name, all else quoted. -/
def display (contents : Nat → Bytes) : Value → String
  | text s => s
  | mode m => "BitwiseMode." ++ m.label
  | direction d => "ShiftDirection." ++ d.label
  | inert o => o.display
  | v => shown contents v

/-- The plain form of a value that holds no buffer. -/
def plain (v : Value) : String := v.display fun _ => []

mutual

/-- Has every integer in the value few enough digits to be written? -/
def isWritable : Value → Bool
  | int n => Decimal.isWritable n
  | list items => areWritable items
  | tuple items => areWritable items
  | dict entries => areEntriesWritable entries
  | set items => areWritable items
  | knot _ content => isWritable content
  | _ => true

/-- Is every value of a list writable? -/
def areWritable : List Value → Bool
  | [] => true
  | v :: rest => isWritable v && areWritable rest

/-- Are all keys and values of a dictionary writable? -/
def areEntriesWritable : List (Value × Value) → Bool
  | [] => true
  | (k, v) :: rest => isWritable k && isWritable v && areEntriesWritable rest

end

end Value

/-! ## Dictionaries -/

/-- A dictionary: keys with their values, in the order in which the keys first came. -/
abbrev Dict := List (Value × Value)

namespace Dict

/-- The value at a key. -/
def find? (d : Dict) (key : Value) : Option Value :=
  (List.find? (fun e => e.1.same key) d).map (·.2)

/-- The value at a text key. -/
def get? (d : Dict) (key : String) : Option Value := Dict.find? d (.text key)

/-- The value at a text key, or null. -/
def get (d : Dict) (key : String) : Value := (Dict.get? d key).getD .null

/-- Sets the value at a key. A key that is present keeps its place and its own form. -/
def put : Dict → Value → Value → Dict
  | [], key, v => [(key, v)]
  | (k, w) :: rest, key, v =>
    if k.same key then (k, v) :: rest else (k, w) :: put rest key v

/-- Sets the entries of another dictionary one by one. -/
def putAll (d other : Dict) : Dict := other.foldl (fun acc e => Dict.put acc e.1 e.2) d

/-- A dictionary from pairs that may repeat a key: the last value counts, at the first place. -/
def ofPairs (pairs : List (Value × Value)) : Dict := putAll [] pairs

end Dict

end Octets
