import Octets.Operator
import Octets.Parameter
import Octets.Transform.Apply

/-!
# Routines

The functions on buffers that callers use by themselves, by name and with arguments in order. Most
of them are what the transforms are made of, but they take arguments of any kind and fail where
those do not fit.
-/

namespace Octets

/-- A function on buffers. -/
inductive Routine where
  | toBuffer
  | requireMutable
  | concat
  | parseBuffer
  | toMinimalBytes
  | signedView
  | unsignedView
  | toSigned
  | toSignedInt
  | descending
  | shuffle
  deriving DecidableEq, Repr

namespace Routine

/-- All routines. -/
def all : List Routine :=
  [toBuffer, requireMutable, concat, parseBuffer, toMinimalBytes, signedView,
    unsignedView, toSigned, toSignedInt, descending, shuffle]

/-- The name that callers use. -/
def name : Routine → String
  | toBuffer => "to_buffer"
  | requireMutable => "require_mutable"
  | concat => "concat"
  | parseBuffer => "parse_buffer"
  | toMinimalBytes => "to_minimal_bytes"
  | signedView => "signed_view"
  | unsignedView => "unsigned_view"
  | toSigned => "to_signed"
  | toSignedInt => "to_signed_int"
  | descending => "descending"
  | shuffle => "shuffle"

/-- The routine with a name. -/
def ofName? (name : String) : Option Routine := all.find? fun r => r.name = name

/-- The parameters; none for the routine that takes any number of arguments. -/
def parameters? : Routine → Option (List Parameter)
  | toBuffer => some [.required "data"]
  | requireMutable => some [.required "buffer", .optional "transform" .null]
  | concat => none
  | parseBuffer => some [.required "value", .optional "name" (.text "buffer")]
  | toMinimalBytes => some [.required "value"]
  | signedView => some [.required "buffer"]
  | unsignedView => some [.required "buffer"]
  | toSigned => some [.required "value"]
  | toSignedInt => some [.required "buffer"]
  | descending => some [.required "a", .required "b"]
  | shuffle => some [.required "buffer", .required "rng"]

/-- The integer that a value is written as, if it is a number without a fraction of its own. -/
def integerOf (contents : Nat → Bytes) (v : Value) : Except Fault Int := do
  match v.asWhole? with
  | some n => return n
  | none =>
    if ← v.related contents .atLeast (.int 0) then throw (.noAttribute v.kind "bit_length")
    else throw (.wrongKind (.notOperand "~" v.kind))

/-- 1 if the second value is the greater one, -1 if it is the lesser one, and otherwise 0. -/
def descends (contents : Nat → Bytes) (a b : Value) : Except Fault Int := do
  let greater ← b.related contents .greater a
  let less ← b.related contents .less a
  return (if greater then 1 else 0) - (if less then 1 else 0)

/-- Why the items of a sequence cannot be replaced. -/
def fixed (v : Value) : Mismatch :=
  match v with
  | .view _ => .readOnly
  | v => .notAssignable v.kind

/-- Shuffles a buffer by a generator. What is too short is left as it is, whatever it is. -/
def shuffleBy (v rng : Value) : Action Unit := do
  let length ← Action.reading fun contents => v.length contents
  if 2 ≤ length then
    match rng, v with
    | .generator _ generator, .buffer _ =>
      let _ ← Transform.applyShuffle generator v true
    | .generator .., v => Action.mismatch (fixed v)
    | rng, _ => Action.fail (.noAttribute rng.kind "randrange")

/-- The result for arguments that are bound to the parameters. Null stands for none. -/
def run (r : Routine) (args : List Value) : Action Value := do
  let arg := args.getD 0 .null
  let other := args.getD 1 .null
  match r with
  | toBuffer => return .buffer (← Action.toBuffer arg)
  | requireMutable => return .buffer (← Action.requireMutable arg other.asText?)
  | concat =>
    return .buffer (← Action.allocate (← Action.reading fun contents => Value.joined contents args))
  | parseBuffer =>
    Action.reading fun contents => do
      let name ← other.printed contents
      return .bytes (← arg.parse contents name)
  | toMinimalBytes =>
    let n ← Action.reading fun contents => integerOf contents arg
    return .buffer (← Action.allocate (Bytes.ofInt n))
  | signedView =>
    let bs ← Action.reading fun contents => arg.byteString contents
    return .list (bs.map fun b => .int (Bytes.signed b))
  | unsignedView =>
    let bs ← Action.reading fun contents => arg.byteString contents
    return .list (Value.ofBytes bs)
  | toSigned => Action.reading fun _ => arg.toSigned
  | toSignedInt => return .int (← Action.reading fun contents => arg.toNumber contents)
  | descending => return .int (← Action.reading fun contents => descends contents arg other)
  | shuffle =>
    shuffleBy arg other
    return .null

/-- The result for arguments in order. -/
def call (r : Routine) (args : List Value) : Action Value := do
  match r.parameters? with
  | none => r.run args
  | some ps =>
    let values ← Action.reading fun _ => Parameter.bind r.name 0 ps args
    r.run values

end Routine

end Octets
