import Octets.Text.Utf8

/-!
# Names of files

A file has bytes for its name, and a text is made of them for people. `ofBytes` reads the bytes as
UTF-8; a byte that fits into no character becomes half of a pair, one from U+DC80 to U+DCFF.
`toBytes` makes that byte of the half again. The other halves stand for no byte: a text with one of
them (`halves?`) names no file.
-/

namespace Octets.Text.FileName

/-- The byte that half of a pair stands for, if it stands for one. -/
def byte? (c : Char) : Option UInt8 :=
  let n := Units.number c
  if 0xdc80 ≤ n && n ≤ 0xdcff then some (UInt8.ofNat (n - 0xdc00)) else none

/-- The character for a byte that fits into none. -/
def ofByte (b : UInt8) : Char := Units.ofNumber (0xdc00 + b.toNat)

/-- The first halves of pairs in a row that stand for no byte. -/
def halves? (name : String) : Option Utf8.Halves :=
  Utf8.halvesFrom? (fun c => Units.isHeld c && (byte? c).isNone) name.toList

/-- The bytes of a name. -/
def toBytes (name : List Char) : Bytes :=
  name.flatMap fun c =>
    match byte? c with
    | some b => [b]
    | none => Utf8.encodeChar c

/-- How many bytes a name has. -/
def size (name : String) : Nat := (toBytes name.toList).length

/-- The text of bytes, with what `mend` makes of those that fit into no character. -/
def mended (mend : Bytes → List Char) (bs : Bytes) : List Char :=
  match _h : Utf8.decode bs with
  | .ok s => s
  | .error fault =>
    let sound := (Utf8.decode (bs.take fault.first)).toOption.getD []
    let faulty := (bs.take (fault.last + 1)).drop fault.first
    sound ++ mend faulty ++ mended mend (bs.drop (fault.last + 1))
termination_by bs.length
decreasing_by
  cases bs with
  | nil => simp [Utf8.decode, Utf8.decodeFrom] at _h
  | cons b rest => simp only [List.length_drop, List.length_cons]; omega

/-- The name that bytes are. -/
def ofBytes (bs : Bytes) : List Char := mended (fun faulty => faulty.map ofByte) bs

/-- The one text that the bytes of a name are read as. Only halves of pairs can be spelled in
another way. -/
def settled (name : List Char) : List Char :=
  if name.any Units.isHeld then ofBytes (toBytes name) else name

/-- A name as it is shown, with U+FFFD for what fits into no character. -/
def shown (name : List Char) : List Char :=
  if name.any Units.isHeld then mended (fun _ => ['\ufffd']) (toBytes name) else name

end Octets.Text.FileName
