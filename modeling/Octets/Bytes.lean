/-!
# Byte strings

A byte string is a list of bytes. This module reads one as a number in three ways, and writes
numbers back:

* `signed` / `ofSigned`: one byte in two's complement, -128 to 127;
* `toNat` / `ofNat`: the whole string as an unsigned big-endian number, at a given width;
* `toInt` / `ofInt`: the whole string as a signed big-endian number, at the least width that has
  room for the sign bit.

All loops are structural: over the bytes for the readers, over the width for the writers.
-/

namespace Octets

/-- A finite sequence of bytes, first byte first. -/
abbrev Bytes := List UInt8

namespace Bytes

/-! ## One byte -/

/-- The two's complement value of a byte: 128 to 255 stand for -128 to -1. -/
def signed (b : UInt8) : Int :=
  if 127 < b.toNat then (b.toNat : Int) - 256 else b.toNat

/-- The byte whose value is `v` modulo 256. -/
def ofSigned (v : Int) : UInt8 := UInt8.ofNat (v % 256).toNat

/-- A signed byte is the byte itself once its value is reduced modulo 256. -/
theorem ofSigned_signed (b : UInt8) : ofSigned (signed b) = b := by
  have hb := b.toNat_lt
  apply UInt8.toNat_inj.mp
  unfold ofSigned signed
  rw [UInt8.toNat_ofNat']
  split <;> omega

/-! ## Unsigned big-endian numbers -/

/-- The value of the bytes as an unsigned big-endian number. -/
def toNat (bs : Bytes) : Nat := bs.foldl (fun acc b => acc * 256 + b.toNat) 0

/-- The last `width` base-256 digits of `n`, most significant first. -/
def ofNat : Nat → Nat → Bytes
  | 0, _ => []
  | width + 1, n => ofNat width (n / 256) ++ [UInt8.ofNat (n % 256)]

@[simp] theorem length_ofNat (width n : Nat) : (ofNat width n).length = width := by
  induction width generalizing n with
  | zero => rfl
  | succ w ih => simp [ofNat, ih]

/-! ## Signed big-endian numbers -/

/-- The value of the bytes as a two's complement big-endian number; the empty string is zero. -/
def toInt (bs : Bytes) : Int :=
  match bs with
  | [] => 0
  | b :: _ =>
    if 127 < b.toNat then (toNat bs : Int) - Nat.pow 256 bs.length else toNat bs

/-- The number of binary digits of `n`; zero has none. -/
def bitLength (n : Nat) : Nat := if n = 0 then 0 else Nat.log2 n + 1

/-- The bits of `v` beside its sign: those of `v`, or of its complement when `v` is negative. -/
def magnitude (v : Int) : Nat := if 0 ≤ v then v.toNat else (-v - 1).toNat

/-- The least number of bytes that hold `v` and its sign bit. -/
def width (v : Int) : Nat := bitLength (magnitude v) / 8 + 1

/-- Has a string of `width` bytes room for `v` and its sign bit? -/
def fits (width : Nat) (v : Int) : Bool :=
  decide (-(Nat.pow 256 width : Int) ≤ 2 * v) && decide (2 * v < (Nat.pow 256 width : Int))

/-- The two's complement big-endian form of `v` at a width, if there is room for it. -/
def ofIntAt? (width : Nat) (v : Int) : Option Bytes :=
  if fits width v then some (ofNat width (v % Nat.pow 256 width).toNat) else none

/-- The shortest two's complement big-endian form of `v`. Zero and -1 take one byte. -/
def ofInt (v : Int) : Bytes := (ofIntAt? (width v) v).getD []

/-! ## Shifting -/

/-- `v` times two to the power `s`, rounded down when `s` is negative. A shift to the right by at
least the bits of `v` leaves its sign only, so no power larger than `v` itself is formed. -/
def scale (v s : Int) : Int :=
  if v = 0 then 0
  else if 0 ≤ s then v * Nat.pow 2 s.toNat
  else if bitLength (magnitude v) ≤ (-s).toNat then (if v < 0 then -1 else 0)
  else v / Nat.pow 2 (-s).toNat

end Bytes

end Octets
