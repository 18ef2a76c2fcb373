import Octets.Store

/-!
# Values as sequences

What a value holds when it is taken as a sequence of bytes or of other values. `contents` gives the
bytes of the buffers in the store.

* `items` goes through any sequence; `length` and `slice` measure and cut one.
* `toBytes` makes bytes of a value in the liberal way: a count stands for that many zeros, a list
  for its items. `joined` takes byte strings only.
* `parse` reads the buffer of a parameter, which may also be written in hexadecimal digits.
* `toNumber` is the signed big-endian number in the bytes.
-/

namespace Octets

namespace Value

/-! ## Sequences -/

/-- The bytes as integers. -/
def ofBytes (bs : Bytes) : List Value := bs.map fun b => .int b.toNat

/-- The bytes of a byte string of any of the three kinds. -/
def asBytes? (contents : Nat → Bytes) : Value → Option Bytes
  | bytes bs => some bs
  | view bs => some bs
  | buffer ref => some (contents ref)
  | _ => none

/-- Is the value the buffer with this number? -/
def isBuffer (ref : Nat) : Value → Bool
  | buffer source => source == ref
  | _ => false

/-- The items of a sequence: those of a list, the keys of a dictionary, the members of a set, the
characters of a text, the bytes of a byte string. -/
def items? (contents : Nat → Bytes) (v : Value) : Option (List Value) :=
  match v.asText?, v.asBytes? contents, v.opened with
  | some s, _, _ => some (s.toList.map fun c => .text (String.ofList [c]))
  | _, some bs, _ => some (ofBytes bs)
  | _, _, list items => some items
  | _, _, tuple items => some items
  | _, _, dict entries => some (entries.map (·.1))
  | _, _, set items => some items
  | _, _, _ => none

/-- The items of a sequence, or a fault. -/
def items (contents : Nat → Bytes) (v : Value) : Except Fault (List Value) :=
  match v.items? contents with
  | some items => .ok items
  | none => .error (.wrongKind (.notIterable v.kind))

/-- The number of items of a sequence, or a fault. -/
def length (contents : Nat → Bytes) (v : Value) : Except Fault Nat :=
  match v.items? contents with
  | some items => .ok items.length
  | none => .error (.wrongKind (.noLength v.kind))

/-- Null, false, zero and the empty sequences do not hold, all other values do. -/
def holds (contents : Nat → Bytes) (v : Value) : Bool :=
  match v.items? contents, v with
  | some items, _ => !items.isEmpty
  | none, null => false
  | none, bool b => b
  | none, int n => n != 0
  | none, float x => !(x == 0.0)
  | none, _ => true

/-! ## Bytes -/

/-- One item as a byte. -/
def itemByte (v : Value) : Except ItemFlaw UInt8 :=
  match v.asWhole? with
  | none => .error (.kind v.kind)
  | some n => if 0 ≤ n ∧ n < 256 then .ok (UInt8.ofNat n.toNat) else .error .range

/-- The items as bytes; the first that is none decides. -/
def itemBytes : List Value → Except ItemFlaw Bytes
  | [] => .ok []
  | v :: rest => do
    let b ← itemByte v
    let bs ← itemBytes rest
    return b :: bs

/-- A flaw of an item, as the fault of making a buffer. -/
def itemFault : ItemFlaw → Fault
  | .range => .badValue .byteRange
  | .kind k => .wrongKind (.notInteger k)

/-- The greatest length of a buffer. -/
def maxLength : Int := 0x7fffffffffffffff

/-- The bytes that a buffer made of the value has. -/
def toBytes (contents : Nat → Bytes) (v : Value) : Except Fault Bytes :=
  match v.asText?, v.asBytes? contents, v.asWhole?, v.items? contents with
  | some _, _, _, _ => .error (.wrongKind .textWithoutEncoding)
  | _, some bs, _, _ => .ok bs
  | _, _, some n, _ =>
    if maxLength < n ∨ n < -maxLength - 1 then .error (.overflow .size)
    else if n < 0 then .error (.badValue .negativeCount)
    else .ok (List.replicate n.toNat 0)
  | _, _, _, some items => (itemBytes items).mapError itemFault
  | _, _, _, none => .error (.wrongKind (.notConvertible v.kind "bytearray"))

/-- The bytes of a byte string; all else is refused. -/
def byteString (contents : Nat → Bytes) (v : Value) : Except Fault Bytes :=
  match v.asBytes? contents with
  | some bs => .ok bs
  | none => .error (.wrongKind (.notBytes v.kind))

/-- The bytes of byte strings one after the other. -/
def joined (contents : Nat → Bytes) : List Value → Except Fault Bytes
  | [] => .ok []
  | v :: rest => do
    match v.asBytes? contents, v with
    | some bs, _ =>
      let tail ← joined contents rest
      return bs ++ tail
    | none, null => .error (.nullParameter "array" none)
    | none, v => .error (.wrongKind (.notAppendable v.kind "bytearray"))

/-- The bytes of a sequence from the index `first` to before `last`. -/
def slice (contents : Nat → Bytes) (v : Value) (first last : Nat) : Except Fault Bytes :=
  match v.asText?, v.asBytes? contents, v with
  | some _, _, _ => .error (.wrongKind .textWithoutEncoding)
  | _, some bs, _ => .ok ((bs.take last).drop first)
  | _, _, list items => (itemBytes ((items.take last).drop first)).mapError itemFault
  | _, _, tuple items => (itemBytes ((items.take last).drop first)).mapError itemFault
  | _, _, dict _ => .error (.wrongKind (.unhashable "slice"))
  | _, _, v => .error (.wrongKind (.notSliceable v.kind))

/-- The signed big-endian number in the bytes of a sequence. -/
def toNumber (contents : Nat → Bytes) (v : Value) : Except Fault Int :=
  match v.asText?, v.asBytes? contents, v.items? contents with
  | none, some bs, _ => .ok bs.toInt
  | none, none, some items =>
    (itemBytes items).map Bytes.toInt |>.mapError fun
      | .range => .badValue (.refused (ItemFlaw.range.message "bytes"))
      | .kind k => .wrongKind (.notInteger k)
  | _, _, _ => .error (.wrongKind (.notConvertible v.kind "bytes"))

/-! ## Byte strings

What the functions above make of a byte string of any of the three kinds.
-/

section

variable {contents : Nat → Bytes} {v : Value} {bs : Bytes}

theorem asText?_of_asBytes? (h : v.asBytes? contents = some bs) : v.asText? = none := by
  cases v <;> simp_all [asBytes?, asText?]

theorem isNull_of_asBytes? (h : v.asBytes? contents = some bs) : v.isNull = false := by
  cases v <;> simp_all [asBytes?, isNull]

theorem items?_of_asBytes? (h : v.asBytes? contents = some bs) :
    v.items? contents = some (ofBytes bs) := by
  rw [items?, asText?_of_asBytes? h, h]

theorem items_of_asBytes? (h : v.asBytes? contents = some bs) :
    v.items contents = .ok (ofBytes bs) := by
  rw [items, items?_of_asBytes? h]

theorem length_of_asBytes? (h : v.asBytes? contents = some bs) :
    v.length contents = .ok bs.length := by
  rw [length, items?_of_asBytes? h]
  simp [ofBytes]

theorem toBytes_of_asBytes? (h : v.asBytes? contents = some bs) :
    v.toBytes contents = .ok bs := by
  rw [toBytes, asText?_of_asBytes? h, h]

theorem joined_cons_of_asBytes? (h : v.asBytes? contents = some bs) (rest : List Value) :
    joined contents (v :: rest) = (joined contents rest).map (bs ++ ·) := by
  simp only [joined, h]
  cases joined contents rest <;> rfl

theorem slice_of_asBytes? (h : v.asBytes? contents = some bs) (first last : Nat) :
    v.slice contents first last = .ok ((bs.take last).drop first) := by
  rw [slice.eq_def, asText?_of_asBytes? h, h]

theorem toNumber_of_asBytes? (h : v.asBytes? contents = some bs) :
    v.toNumber contents = .ok bs.toInt := by
  rw [toNumber, asText?_of_asBytes? h, h]

end

/-! ## Parameters -/

/-- Reads the buffer that is the value of a parameter: a byte string, a list of bytes, or a text of
hexadecimal digits. -/
def parse (contents : Nat → Bytes) (name : String) (v : Value) : Except Fault Bytes :=
  match v.asText?, v.asBytes? contents, v.opened with
  | some s, _, _ =>
    (Text.Hex.read s.toList).mapError fun pos => .unusable (.badHex name pos) none
  | _, some bs, _ => .ok bs
  | _, _, list items => (itemBytes items).mapError fun flaw => .unusable (.badItems name flaw) none
  | _, _, tuple items => (itemBytes items).mapError fun flaw => .unusable (.badItems name flaw) none
  | _, _, null => .error (.nullParameter name none)
  | _, _, v => .error (.unusable (.notBuffer name v.kind) none)

/-! ## Signed values -/

/-- A number above 127 less 256. A value that is no number has no place beside 127. -/
def toSigned (v : Value) : Except Fault Value :=
  match v, v.asWhole? with
  | float x, _ => .ok (.float (if x > 127 then x - 256 else x))
  | v, some n => .ok (if 127 < n then .int (n - 256) else v)
  | v, none => .error (.wrongKind (.notOrdered ">" v.kind "int"))

end Value

namespace Action

/-- A computation on a value and the present contents of the buffers. -/
def reading {α : Type} (f : (Nat → Bytes) → Except Fault α) : Action α := do
  ofExcept id (f (← get).bytes)

/-- A new buffer with the bytes of a value. -/
def toBuffer (v : Value) : Action Nat := do
  if v.isNull then fail (.nullParameter "buffer" none)
  else allocate (← reading fun contents => v.toBytes contents)

/-- The buffer that a value is, if it can be overwritten. -/
def requireMutable (v : Value) (transform : Option String) : Action Nat :=
  match v with
  | .buffer ref => return ref
  | v => object (.notMutable v.kind) transform

/-- The buffer to work in: the value itself in place, otherwise a copy. -/
def workspace (v : Value) (inPlace : Bool) (transform : String) : Action Nat :=
  if inPlace then requireMutable v (some transform) else toBuffer v

@[simp] theorem outcome_reading {α : Type} (f : (Nat → Bytes) → Except Fault α) (s : Store) :
    (reading f).outcome s = (f s.bytes, s) := by
  show (ofExcept id (f s.bytes)).outcome s = _
  cases f s.bytes <;> rfl

/-- A byte string is copied into a new buffer. -/
theorem outcome_toBuffer {s : Store} {v : Value} {bs : Bytes} (h : v.asBytes? s.bytes = some bs) :
    (toBuffer v).outcome s = (.ok s.buffers.length, (s.add bs).2) := by
  simp [toBuffer, Value.isNull_of_asBytes? h, Value.toBytes_of_asBytes? h]

end Action

end Octets
