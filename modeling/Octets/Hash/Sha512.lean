import Octets.Bytes

/-!
# SHA-512

The 64-byte digest of a byte string, computed on lists of 64-bit words.

The constants are the first 64 bits of the fractional parts of square roots (eight initial words)
and cube roots (eighty round words) of the first primes, and are computed as such by `fractionBits`.
The message is padded with a one bit, zeros and its length, and taken in blocks of sixteen words;
each block is stretched to eighty words by `schedule` and mixed into the state by eighty rounds.
-/

namespace Octets.Hash.Sha512

/-! ## Constants -/

/-- The largest number below `2 ^ bits` whose `k`-th power is at most `n`. -/
def root (k n : Nat) : Nat → Nat
  | 0 => 0
  | bits + 1 =>
    let high := root k (n / Nat.pow 2 k) bits * 2
    if Nat.pow (high + 1) k ≤ n then high + 1 else high

/-- The first 64 bits behind the binary point of the `k`-th root of `n`, for `n` below 512. -/
def fractionBits (k n : Nat) : UInt64 := UInt64.ofNat (root k (n * Nat.pow 2 (64 * k)) 80)

def isPrime (n : Nat) : Bool := 2 ≤ n && (List.range n).all fun d => d < 2 || n % d != 0

/-- The first eighty primes. -/
def primes : List Nat := (List.range 410).filter isPrime

/-- The initial state. -/
def initial : List UInt64 := (primes.take 8).map (fractionBits 2)

/-- The words added in the rounds. -/
def roundWords : List UInt64 := primes.map (fractionBits 3)

/-! ## The message -/

/-- The message followed by a one bit, zeros and its length in bits, up to a multiple of 128
bytes. -/
def pad (bs : Bytes) : Bytes :=
  bs ++ 0x80 :: (List.replicate ((239 - bs.length % 128) % 128) 0 ++ Bytes.ofNat 16 (8 * bs.length))

/-- The bytes as big-endian words of eight bytes each. -/
def words (bs : Bytes) : List UInt64 :=
  match bs with
  | [] => []
  | b :: rest => UInt64.ofNat (Bytes.toNat (b :: rest.take 7)) :: words (rest.drop 7)
termination_by bs.length
decreasing_by simp only [List.length_drop, List.length_cons]; omega

/-! ## Mixing -/

def rotateRight (x : UInt64) (n : UInt64) : UInt64 := (x >>> n) ||| (x <<< (64 - n))

/-- Sixteen words stretched to eighty. -/
def schedule (block : List UInt64) : Array UInt64 :=
  (List.range 64).foldl
    (fun w t =>
      let far := w.getD (t + 1) 0
      let near := w.getD (t + 14) 0
      let mixFar := rotateRight far 1 ^^^ rotateRight far 8 ^^^ (far >>> 7)
      let mixNear := rotateRight near 19 ^^^ rotateRight near 61 ^^^ (near >>> 6)
      w.push (w.getD t 0 + mixFar + w.getD (t + 9) 0 + mixNear))
    block.toArray

/-- One round with the word `k + w`. -/
def round (state : List UInt64) (word : UInt64) : List UInt64 :=
  match state with
  | [a, b, c, d, e, f, g, h] =>
    let choice := (e &&& f) ^^^ ((~~~e) &&& g)
    let majority := (a &&& b) ^^^ (a &&& c) ^^^ (b &&& c)
    let mixLow := rotateRight e 14 ^^^ rotateRight e 18 ^^^ rotateRight e 41
    let mixHigh := rotateRight a 28 ^^^ rotateRight a 34 ^^^ rotateRight a 39
    let t := h + mixLow + choice + word
    [t + mixHigh + majority, a, b, c, d + t, e, f, g]
  | _ => state

/-- Mixes a block of sixteen words into the state. -/
def absorb (state block : List UInt64) : List UInt64 :=
  let mixed := (List.zipWith (· + ·) roundWords (schedule block).toList).foldl round state
  List.zipWith (· + ·) state mixed

/-- Mixes all blocks into the state, sixteen words at a time. -/
def absorbAll (state : List UInt64) (ws : List UInt64) : List UInt64 :=
  match ws with
  | [] => state
  | w :: rest => absorbAll (absorb state (w :: rest.take 15)) (rest.drop 15)
termination_by ws.length
decreasing_by simp only [List.length_drop, List.length_cons]; omega

/-- The digest of a byte string. -/
def digest (bs : Bytes) : Bytes :=
  (absorbAll initial (words (pad bs))).flatMap fun w => Bytes.ofNat 8 w.toNat

end Octets.Hash.Sha512
