import Octets.Log.Field

/-!
# Message templates

A template is a text with fields: a percent sign, flags, a width, a precision and a letter. A
percent sign right behind another stands for itself. `fill` puts arguments into the fields, in
order, or refuses if they do not fit: too few, too many, or of a kind that the letter does not show.

A star instead of a width or of a precision takes it from the arguments. A field may name its
argument between parentheses, if there is a single argument and it is a dictionary; behind such a
field no more arguments are left.
-/

namespace Octets.Log.Template

/-! ## Pieces -/

/-- A width or a precision: a number, or the next argument. -/
inductive Amount where
  | number (n : Nat)
  | argument
  deriving DecidableEq, Repr

/-- A field as it is written. -/
structure Slot where
  key : Option (List Char)
  flags : List Char
  width : Amount
  precision : Option Amount
  letter : Char
  deriving DecidableEq, Repr

/-- A piece of a template. -/
inductive Piece where
  | text (c : Char)
  | field (slot : Slot)
  deriving DecidableEq, Repr

def isFlag (c : Char) : Bool := c == '-' || c == '+' || c == ' ' || c == '0' || c == '#'

def isDigit (c : Char) : Bool := '0' ≤ c && c ≤ '9'

def isSizeMark (c : Char) : Bool := c == 'h' || c == 'l' || c == 'L'

/-- The value of decimal digits. -/
def number (digits : List Char) : Nat := digits.foldl (fun n c => n * 10 + (c.toNat - 0x30)) 0

/-- Reads a name up to the parenthesis that closes it; `depth` others are open inside. -/
def keyFrom (depth : Nat) : List Char → Option (List Char × List Char)
  | [] => none
  | c :: rest =>
    if c = ')' ∧ depth = 0 then some ([], rest)
    else
      let depth := if c = '(' then depth + 1 else if c = ')' then depth - 1 else depth
      (keyFrom depth rest).map fun (name, rest) => (c :: name, rest)

/-- Reads a name between parentheses, if there is one. -/
def key? (s : List Char) : Option (Option (List Char) × List Char) :=
  match s with
  | '(' :: rest => (keyFrom 0 rest).map fun (name, rest) => (some name, rest)
  | _ => some (none, s)

/-- Reads a width or a precision. -/
def amount (s : List Char) : Amount × List Char :=
  match s with
  | '*' :: rest => (.argument, rest)
  | _ => (.number (number (s.takeWhile isDigit)), s.dropWhile isDigit)

/-- Reads a precision behind a point. -/
def precision? (s : List Char) : Option Amount × List Char :=
  match s with
  | '.' :: rest =>
    let (n, rest) := amount rest
    (some n, rest)
  | _ => (none, s)

/-- Leaves out a mark for the size of a number. -/
def dropSizeMark (s : List Char) : List Char :=
  match s with
  | c :: rest => if isSizeMark c then rest else s
  | [] => []

/-- Reads a field behind its percent sign. -/
def slot? (s : List Char) : Option (Slot × List Char) := do
  let (key, s) ← key? s
  let flags := s.takeWhile isFlag
  let (width, s) := amount (s.dropWhile isFlag)
  let (precision, s) := precision? s
  match dropSizeMark s with
  | [] => none
  | letter :: rest => some (⟨key, flags, width, precision, letter⟩, rest)

/-- The pieces of a template. Every piece takes a character, so their number is bounded by `fuel`,
the length of the text. -/
def pieces : Nat → List Char → Option (List Piece)
  | _, [] => some []
  | 0, _ => none
  | fuel + 1, '%' :: '%' :: rest => (pieces fuel rest).map (.text '%' :: ·)
  | fuel + 1, '%' :: rest => do
    let (slot, rest) ← slot? rest
    let more ← pieces fuel rest
    return .field slot :: more
  | fuel + 1, c :: rest => (pieces fuel rest).map (.text c :: ·)

/-! ## Filling -/

/-- No width or precision is larger than this. -/
def maxAmount : Nat := 0x7fffffff

/-- A width or a precision as a number, and the arguments behind it. -/
def Amount.resolve? (amount : Amount) (args : List Value) : Option (Int × List Value) :=
  match amount, args with
  | number n, args => if n ≤ maxAmount then some (n, args) else none
  | argument, [] => none
  | argument, v :: args =>
    match v.asWhole? with
    | some n => if n.natAbs ≤ maxAmount then some (n, args) else none
    | none => none

/-- The layout of a field, and the arguments behind it. A negative width puts the blanks to the
right, and a negative precision counts as zero. -/
def Slot.layout? (slot : Slot) (args : List Value) : Option (Layout × List Value) := do
  let (width, args) ← slot.width.resolve? args
  let (precision, args) ← match slot.precision with
    | none => some (none, args)
    | some amount => (amount.resolve? args).map fun (n, args) => (some n.toNat, args)
  let layout : Layout :=
    { left := slot.flags.contains '-' || width < 0
      plus := slot.flags.contains '+'
      blank := slot.flags.contains ' '
      zero := slot.flags.contains '0'
      alternate := slot.flags.contains '#'
      width := width.natAbs
      precision := precision }
  return (layout, args)

/-- One field with what is shown in it, and the arguments behind it; `named` holds the arguments
that have names. -/
def Slot.fill? (contents : Nat → Bytes) (named : Option Dict) (slot : Slot) (args : List Value) :
    Option (List Char × List Value) := do
  let args ← match slot.key with
    | none => some args
    | some key => (named.bind fun d => Dict.get? d (String.ofList key)).map fun v => [v]
  let (layout, args) ← slot.layout? args
  match args with
  | [] => none
  | v :: args => (Field.show? contents layout slot.letter v).map fun s => (s, args)

/-- Puts the arguments into the pieces. -/
def fillPieces (contents : Nat → Bytes) (named : Option Dict) :
    List Piece → List Value → Option (List Char)
  | [], args => if args.isEmpty || named.isSome then some [] else none
  | .text c :: rest, args => (fillPieces contents named rest args).map (c :: ·)
  | .field slot :: rest, args => do
    let (s, args) ← slot.fill? contents named args
    let more ← fillPieces contents named rest args
    return s ++ more

/-- The message of a template with its arguments; none if they do not fit. Without arguments the
template is the message. -/
def fill (contents : Nat → Bytes) (template : String) (args : List Value) : Option String :=
  match args with
  | [] => some template
  | args =>
    let named := match args with
      | [.dict entries] => if entries.isEmpty then none else some entries
      | _ => none
    let s := template.toList
    (pieces s.length s).bind fun ps => (fillPieces contents named ps args).map String.ofList

end Octets.Log.Template
