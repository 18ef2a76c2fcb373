import Octets.Transform.Basic
import Octets.Transform.Order

/-!
# Making transforms

The checks that the parameters of each kind of transform pass when it is made. A parameter without a
value is refused before one with an unusable value, and parameters are looked at in a fixed order.
-/

namespace Octets.Transform

/-- The mode that a value stands for: a member, or its word. -/
def toMode (contents : Nat → Bytes) (v : Value) : Except Fault Mode :=
  match Mode.all.find? fun m => v.asText? = some m.word with
  | some m => .ok m
  | none => do
    let shown ← v.quoted contents
    throw (.unusable (.unknownMode shown) (some "bitwise"))

/-- The direction that a value stands for: a member, or its word. -/
def toDirection (contents : Nat → Bytes) (v : Value) : Except Fault Direction :=
  match Direction.all.find? fun d => v.asText? = some d.word with
  | some d => .ok d
  | none => do
    let shown ← v.quoted contents
    throw (.unusable (.unknownDirection shown) (some "shift"))

/-- Refuses a parameter without a value. -/
def present (field transform : String) (v : Value) : Except Fault Unit :=
  if v.isNull then .error (.nullParameter field (some transform)) else .ok ()

/-- The integer that a value is; a truth value is none. -/
def toInteger (contents : Nat → Bytes) (field transform : String) (v : Value) : Except Fault Int :=
  match v.asInt? with
  | some n => .ok n
  | none => do
    let shown ← v.quoted contents
    throw (.unusable (.notInteger field shown) (some transform))

def makeBitwise (contents : Nat → Bytes) (second mode : Value) : Except Fault Transform := do
  present "second" "bitwise" second
  present "mode" "bitwise" mode
  let mode ← toMode contents mode
  let second ← second.parse contents "second"
  return bitwise second mode

def makeShift (contents : Nat → Bytes) (count direction : Value) : Except Fault Transform := do
  present "shift_count" "shift" count
  present "direction" "shift" direction
  let count ← toInteger contents "shift_count" "shift" count
  let direction ← toDirection contents direction
  return shift count direction

def makeConcat (contents : Nat → Bytes) (second : Value) : Except Fault Transform := do
  present "second" "concat" second
  let second ← second.parse contents "second"
  return concat second

def makeSort (comparator : Value) : Except Fault Transform :=
  match comparator with
  | .null => .ok (sort none)
  | .comparator c => .ok (sort (some c))
  | _ => .error (.unusable .notComparator (some "sort"))

def makeShuffle (rng : Value) : Except Fault Transform :=
  match rng with
  | .null => .error (.nullParameter "rng" (some "shuffle"))
  | .generator kind ref => .ok (shuffle kind ref)
  | _ => .error (.unusable .notGenerator (some "shuffle"))

def makeCopy (contents : Nat → Bytes) (offset length : Value) : Except Fault Transform := do
  present "offset" "copy" offset
  let offset ← toInteger contents "offset" "copy" offset
  present "length" "copy" length
  let length ← toInteger contents "length" "copy" length
  return copy offset length

def makeResize (contents : Nat → Bytes) (size : Value) : Except Fault Transform := do
  present "new_size" "resize" size
  let size ← toInteger contents "new_size" "resize" size
  return resize size

end Octets.Transform
