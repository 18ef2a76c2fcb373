/-!
# The Mersenne Twister

A generator of 32-bit words with a state of 624 words. `ofKey` fills the state from a key of any
number of words, `next` gives one word and the state behind it. When all words of the state are used
up the state is twisted into the next 624.
-/

namespace Octets.Random

/-- The words of the state and the index of the next one to give out. -/
structure Twister where
  words : Array UInt32
  index : Nat

namespace Twister

/-- The number of words of the state. -/
def size : Nat := 624

/-- How far apart the words are that are twisted together. -/
def stride : Nat := 397

/-! ## Filling the state -/

/-- A word mixed with itself, as both fills use it. -/
def fold (w : UInt32) : UInt32 := w ^^^ (w >>> 30)

/-- The state filled from one word. -/
def fill (seed : UInt32) : Array UInt32 :=
  (List.range (size - 1)).foldl
    (fun words i => words.push (1812433253 * fold (words.getD i 0) + UInt32.ofNat (i + 1))) #[seed]

/-- Goes on to the next word of the state; behind the last comes the second, with the last copied to
the first. -/
def advance (words : Array UInt32) (i : Nat) : Array UInt32 × Nat :=
  if i + 1 < size then (words, i + 1) else (words.setIfInBounds 0 (words.getD (size - 1) 0), 1)

/-- Mixes the words of a key into the state, `steps` times one word. -/
def mixKey (key : Array UInt32) : Nat → Array UInt32 → Nat → Nat → Array UInt32 × Nat
  | 0, words, i, _ => (words, i)
  | steps + 1, words, i, j =>
    let word := (words.getD i 0 ^^^ (fold (words.getD (i - 1) 0) * 1664525)) + key.getD j 0 +
      UInt32.ofNat j
    let (words, i) := advance (words.setIfInBounds i word) i
    mixKey key steps words i (if j + 1 < key.size then j + 1 else 0)

/-- Mixes the words of the state with one another, `steps` times one word. -/
def mixSelf : Nat → Array UInt32 → Nat → Array UInt32
  | 0, words, _ => words
  | steps + 1, words, i =>
    let word := (words.getD i 0 ^^^ (fold (words.getD (i - 1) 0) * 1566083941)) - UInt32.ofNat i
    let (words, i) := advance (words.setIfInBounds i word) i
    mixSelf steps words i

/-- The generator for a key. -/
def ofKey (key : Array UInt32) : Twister :=
  let (words, i) := mixKey key (max size key.size) (fill 19650218) 1 0
  ⟨(mixSelf (size - 1) words i).setIfInBounds 0 0x80000000, size⟩

/-! ## Giving out words -/

/-- The next 624 words of the state. -/
def twist (words : Array UInt32) : Array UInt32 :=
  (List.range size).foldl
    (fun words i =>
      let y := (words.getD i 0 &&& 0x80000000) ||| (words.getD ((i + 1) % size) 0 &&& 0x7fffffff)
      let z := words.getD ((i + stride) % size) 0 ^^^ (y >>> 1)
      words.setIfInBounds i (if y &&& 1 = 1 then z ^^^ 0x9908b0df else z))
    words

/-- A word of the state as it is given out. -/
def temper (y : UInt32) : UInt32 :=
  let y := y ^^^ (y >>> 11)
  let y := y ^^^ ((y <<< 7) &&& 0x9d2c5680)
  let y := y ^^^ ((y <<< 15) &&& 0xefc60000)
  y ^^^ (y >>> 18)

/-- The next word, and the generator behind it. -/
def next (t : Twister) : UInt32 × Twister :=
  let t := if t.index < size then t else ⟨twist t.words, 0⟩
  (temper (t.words.getD t.index 0), { t with index := t.index + 1 })

/-- The next `count` random bits as a number. Each word gives 32 of them, the first word the lowest;
of the last word the highest bits are taken. -/
def bits (count : Nat) (t : Twister) : Nat × Twister :=
  if _h : 32 < count then
    let (low, t) := t.next
    let (high, t) := t.bits (count - 32)
    (high * 0x100000000 + low.toNat, t)
  else
    let (word, t) := t.next
    (word.toNat / Nat.pow 2 (32 - count), t)
termination_by count
decreasing_by all_goals omega

end Twister

end Octets.Random
