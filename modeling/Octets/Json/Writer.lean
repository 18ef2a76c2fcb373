import Octets.Json.Text
import Octets.Value

/-!
# Writing JSON

A value on one line, with `", "` between items and `": "` behind keys. Tuples are written as lists,
members of an enumeration as their words. Keys that are words or numbers in the value are written as
texts. A value that the format has no form for is refused by its kind.
-/

namespace Octets.Json

/-- A text in quotes, as a string. -/
def quoteString (ascii : Bool) (s : String) : String := String.ofList (quote ascii s.toList)

/-- A truth value as the format writes it. -/
def boolWord (b : Bool) : String := if b then "true" else "false"

/-- The text of a key, or the kind that cannot be one. -/
def keyText (v : Value) : Except String String :=
  match v.asText? with
  | some s => .ok s
  | none =>
    match v with
    | .null => .ok "null"
    | .bool b => .ok (boolWord b)
    | .int n => .ok (Decimal.integerString n)
    | .float x => .ok (Decimal.Layout.named.float x)
    | _ => .error v.kind

mutual

/-- Writes a value, or gives the kind that has no form. -/
def write (ascii : Bool) : Value → Except String String
  | .null => .ok "null"
  | .bool b => .ok (boolWord b)
  | .int n => .ok (Decimal.integerString n)
  | .float x => .ok (Decimal.Layout.named.float x)
  | .text s => .ok (quoteString ascii s)
  | .mode m => .ok (quoteString ascii m.word)
  | .direction d => .ok (quoteString ascii d.word)
  | .list items => do
    let items ← writeAll ascii items
    return "[" ++ Value.commas items ++ "]"
  | .tuple items => do
    let items ← writeAll ascii items
    return "[" ++ Value.commas items ++ "]"
  | .dict entries => do
    let entries ← writeEntries ascii entries
    return "\x7b" ++ Value.commas entries ++ "\x7d"
  | v => .error v.kind

/-- Writes the items of a list. -/
def writeAll (ascii : Bool) : List Value → Except String (List String)
  | [] => .ok []
  | v :: rest => do
    let v ← write ascii v
    let rest ← writeAll ascii rest
    return v :: rest

/-- Writes the members of an object. -/
def writeEntries (ascii : Bool) : List (Value × Value) → Except String (List String)
  | [] => .ok []
  | (k, v) :: rest => do
    let k ← keyText k
    let v ← write ascii v
    let rest ← writeEntries ascii rest
    return (quoteString ascii k ++ ": " ++ v) :: rest

end

end Octets.Json
