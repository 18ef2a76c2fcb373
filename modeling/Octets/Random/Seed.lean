import Octets.Decimal.Residue
import Octets.Fault
import Octets.Hash.Sha512
import Octets.Random.Twister

/-!
# Seeds

The number that a parameter value seeds a generator with, and the key that the number gives.

* A whole number counts by its size.
* A byte string is followed by its SHA-512 digest, and the whole read as a number; a text counts as
  its encoding.
* A floating-point number counts by its residue modulo a prime.
-/

namespace Octets.Random

/-! ## Numbers and keys -/

/-- The number for a byte string: the bytes and their digest. -/
def seedOfBytes (bs : Bytes) : Nat := Bytes.toNat (bs ++ Hash.Sha512.digest bs)

/-- The number for a text. -/
def seedOfText (s : String) : Except Fault Nat :=
  match Text.Utf8.ofString s with
  | .ok bs => .ok (seedOfBytes bs)
  | .error h => .error (.badValue (.halves h))

/-- The number that a value seeds with; `contents` gives the bytes of the buffers in the store.
Other kinds of values are no seeds. -/
def seedOf (contents : Nat → Bytes) (v : Value) : Except Fault Nat :=
  match v.asText?, v with
  | some s, _ => seedOfText s
  | none, .null => .ok 0
  | none, .bool b => .ok (if b then 1 else 0)
  | none, .int n => .ok n.natAbs
  | none, .float x => .ok (Decimal.floatResidue x % 0x10000000000000000).toNat
  | none, .bytes bs => .ok (seedOfBytes bs)
  | none, .buffer ref => .ok (seedOfBytes (contents ref))
  | none, _ => .error (.wrongKind .seed)

/-- The 32-bit words of a number, lowest first. -/
def wordsOf (n : Nat) : List UInt32 :=
  if _h : n < 0x100000000 then [UInt32.ofNat n]
  else UInt32.ofNat (n % 0x100000000) :: wordsOf (n / 0x100000000)
termination_by n
decreasing_by omega

/-- The generator that a number seeds. -/
def Twister.ofNumber (n : Nat) : Twister := Twister.ofKey (wordsOf n).toArray

end Octets.Random
