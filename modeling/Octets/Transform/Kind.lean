import Octets.Parameter

/-!
# Kinds of transforms

The nine kinds of transforms of this library, with what is said about each: its label, its name in
faults, one line about it, the parameters its constructor takes in order, and the keys it accepts in
a parameter dictionary.
-/

namespace Octets

/-- A kind of transform. -/
inductive Kind where
  | bitwise
  | negate
  | shift
  | concat
  | reverse
  | sort
  | shuffle
  | copy
  | resize
  deriving DecidableEq, Repr

namespace Kind

/-- The name of the kind, as faults and listings give it. -/
def name : Kind → String
  | bitwise => "bitwise"
  | negate => "not"
  | shift => "shift"
  | concat => "concat"
  | reverse => "reverse"
  | sort => "sort"
  | shuffle => "shuffle"
  | copy => "copy"
  | resize => "resize"

/-- The label of the kind. -/
def label : Kind → String
  | bitwise => "BitwiseTransformer"
  | negate => "NegateTransformer"
  | shift => "ShiftTransformer"
  | concat => "ConcatTransformer"
  | reverse => "ReverseTransformer"
  | sort => "SortTransformer"
  | shuffle => "ShuffleTransformer"
  | copy => "CopyTransformer"
  | resize => "ResizeTransformer"

/-- One line about the kind. -/
def summary : Kind → String
  | bitwise => "Combines the buffer byte by byte with a second, equally long buffer."
  | negate => "One's complement of every byte (not of the buffer as a number)."
  | shift => "Shifts the whole buffer, read as a signed big-endian integer."
  | concat => "Appends a second buffer; always allocates since the result is longer."
  | reverse => "Reverses the byte order by swapping from both ends."
  | sort => "Sorts the bytes, by signed 8-bit value unless a comparator is given."
  | shuffle => "Fisher-Yates shuffle driven by a caller-owned, seeded generator."
  | copy =>
    "Extracts \u0060\u0060length\u0060\u0060 bytes starting at \u0060\u0060offset\u0060\u0060 " ++
      "into a new buffer."
  | resize => "Resizes the buffer as if it held a big-endian number."

/-- The parameters of the constructor. -/
def parameters : Kind → List Parameter
  | bitwise => [.required "second", .required "mode"]
  | negate => []
  | shift => [.required "shift_count", .required "direction"]
  | concat => [.required "second"]
  | reverse => []
  | sort => [.optional "comparator" .null]
  | shuffle => [.required "rng"]
  | copy => [.required "offset", .required "length"]
  | resize => [.required "new_size"]

/-- The keys accepted in a parameter dictionary. -/
def accepted : Kind → List String
  | bitwise => ["second", "mode"]
  | negate => []
  | shift => ["shift_count", "count", "direction"]
  | concat => ["second"]
  | reverse => []
  | sort => ["comparator", "descending"]
  | shuffle => ["rng", "seed"]
  | copy => ["offset", "length"]
  | resize => ["new_size", "size"]

/-- All kinds. -/
def all : List Kind := [bitwise, negate, shift, concat, reverse, sort, shuffle, copy, resize]

/-- The kind with a label. -/
def ofLabel? (label : String) : Option Kind := all.find? fun k => k.label = label

end Kind

end Octets
