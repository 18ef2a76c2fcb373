import Octets.Json.Reader
import Octets.Text.FileName

/-!
# Faults

Everything that can go wrong, by cause. A fault carries what its text needs, and `Fault.message` is
the one place where the texts are.

Five of the causes are faults of a transform or of its parameters. They have a `Report`: a stable
code, the message, the transform they belong to, and for two of them the facts behind the message.
The others are faults of the values handed in, of files and of documents.
-/

namespace Octets

/-! ## Unusable arguments -/

/-- Why the items of a list are not the bytes of a buffer. -/
inductive ItemFlaw where
  /-- An integer outside 0 to 255. -/
  | range
  /-- An item that is no integer. -/
  | kind (kind : String)
  deriving DecidableEq, Repr

namespace ItemFlaw

/-- The text of the flaw; `noun` is what one item would have become. -/
def message (noun : String) : ItemFlaw → String
  | range => noun ++ " must be in range(0, 256)"
  | kind k => "'" ++ k ++ "' object cannot be interpreted as an integer"

end ItemFlaw

/-- Why an argument of a transform cannot be used. -/
inductive Objection where
  /-- Overwriting is asked of a buffer that cannot be written. -/
  | notMutable (kind : String)
  | badHex (name : String) (pos : Nat)
  | badItems (name : String) (flaw : ItemFlaw)
  | notBuffer (name kind : String)
  | unknownMode (shown : String)
  | unknownDirection (shown : String)
  | notInteger (field shown : String)
  /-- An empty buffer has no sign bit and is no number. -/
  | emptyNumber
  | negativeSize
  | notComparator
  | notGenerator
  | unknownParameters (names accepted : List String)
  deriving DecidableEq, Repr

namespace Objection

/-- Texts with a comma and a blank between them. -/
def listing (names : List String) : String := ", ".intercalate names

def message : Objection → String
  | notMutable kind => "in-place transform requires a bytearray, got " ++ kind
  | badHex name pos =>
    name ++ " is not a valid hex string: " ++
      "non-hexadecimal number found in fromhex() arg at position " ++ toString pos
  | badItems name flaw =>
    name ++ " must contain integers between 0 and 255: " ++ flaw.message "bytes"
  | notBuffer name kind => name ++ " must be bytes or a hex string, got " ++ kind
  | unknownMode shown => "unknown bitwise transform mode " ++ shown
  | unknownDirection shown => "unknown shift type " ++ shown
  | notInteger field shown => field ++ " must be an integer, got " ++ shown
  | emptyNumber => "an empty buffer does not encode an integer to shift"
  | negativeSize => "cannot resize to smaller than 0"
  | notComparator => "comparator must be callable"
  | notGenerator => "rng must provide randrange()"
  | unknownParameters names accepted =>
    "unknown parameter(s) " ++ listing names ++ "; accepted: " ++
      (if accepted.isEmpty then "none" else listing accepted)

end Objection

/-! ## Values of the wrong kind -/

/-- What does not fit between a callee and the arguments it is given. -/
inductive Arity where
  /-- Parameters without a value, by position. -/
  | missing (callee : String) (names : List String)
  /-- More arguments than parameters. -/
  | tooMany (callee : String) (least most given : Nat)
  /-- Arguments for a callee that takes none at all. -/
  | takesNone (callee : String)
  deriving DecidableEq, Repr

namespace Arity

/-- Names in quotes, with "and" before the last. -/
def enumeration : List String → String
  | [] => ""
  | [a] => "'" ++ a ++ "'"
  | [a, b] => "'" ++ a ++ "' and '" ++ b ++ "'"
  | names =>
    ", ".intercalate (names.dropLast.map fun a => "'" ++ a ++ "'") ++ ", and '" ++
      names.getLastD "" ++ "'"

def plural (n : Nat) : String := if n = 1 then "" else "s"

def message : Arity → String
  | missing callee names =>
    callee ++ "() missing " ++ toString names.length ++ " required positional argument" ++
      plural names.length ++ ": " ++ enumeration names
  | tooMany callee least most given =>
    callee ++ "() takes " ++
      (if least = most then toString most ++ " positional argument" ++ plural most
        else "from " ++ toString least ++ " to " ++ toString most ++ " positional arguments") ++
      " but " ++ toString given ++ " were given"
  | takesNone callee => callee ++ "() takes no arguments"

end Arity

/-- Why a value is of the wrong kind for what is asked of it. -/
inductive Mismatch where
  | notIterable (kind : String)
  | noLength (kind : String)
  | unhashable (kind : String)
  | notInteger (kind : String)
  /-- A text where bytes are expected. -/
  | textWithoutEncoding
  /-- Something where a text is looked through. -/
  | notText (kind : String)
  /-- Something where a level is expected. -/
  | notLevel (shown : String)
  | notConvertible (kind target : String)
  | notAppendable (kind target : String)
  | notConcatenable (kind target : String)
  | notSliceable (kind : String)
  /-- A bound of a range that is no integer. -/
  | notIndex
  /-- Something where a byte string is expected. -/
  | notBytes (kind : String)
  | notCallable (kind : String)
  /-- A sequence whose items cannot be replaced. -/
  | notAssignable (kind : String)
  /-- A view of memory that cannot be written. -/
  | readOnly
  | notOperand (operator kind : String)
  | notOperands (operator left right : String)
  | notOrdered (operator left right : String)
  /-- The item at this index of a list of pairs is no sequence. -/
  | notPair (index : Nat)
  | seed
  | notPath (kind : String)
  | notJson (kind : String)
  | arity (cause : Arity)
  deriving DecidableEq, Repr

namespace Mismatch

def message : Mismatch → String
  | notIterable kind => "'" ++ kind ++ "' object is not iterable"
  | noLength kind => "object of type '" ++ kind ++ "' has no len()"
  | unhashable kind => "unhashable type: '" ++ kind ++ "'"
  | notInteger kind => (ItemFlaw.kind kind).message ""
  | textWithoutEncoding => "string argument without an encoding"
  | notText kind => "expected string or bytes-like object, got '" ++ kind ++ "'"
  | notLevel shown => "Level not an integer or a valid string: " ++ shown
  | notConvertible kind target => "cannot convert '" ++ kind ++ "' object to " ++ target
  | notAppendable kind target => "can't concat " ++ kind ++ " to " ++ target
  | notConcatenable kind target =>
    "can only concatenate " ++ target ++ " (not \"" ++ kind ++ "\") to " ++ target
  | notSliceable kind => "'" ++ kind ++ "' object is not subscriptable"
  | notIndex => "slice indices must be integers or None or have an __index__ method"
  | notBytes kind => "a bytes-like object is required, not '" ++ kind ++ "'"
  | notCallable kind => "'" ++ kind ++ "' object is not callable"
  | notAssignable kind => "'" ++ kind ++ "' object does not support item assignment"
  | readOnly => "cannot modify read-only memory"
  | notOperand operator kind => "bad operand type for unary " ++ operator ++ ": '" ++ kind ++ "'"
  | notOperands operator left right =>
    "unsupported operand type(s) for " ++ operator ++ ": '" ++ left ++ "' and '" ++ right ++ "'"
  | notOrdered operator left right =>
    "'" ++ operator ++ "' not supported between instances of '" ++ left ++ "' and '" ++ right ++ "'"
  | notPair index =>
    "cannot convert dictionary update sequence element #" ++ toString index ++ " to a sequence"
  | seed => "The only supported seed types are: None,\nint, float, str, bytes, and bytearray."
  | notPath kind => "expected str, bytes or os.PathLike object, not " ++ kind
  | notJson kind => "Object of type " ++ kind ++ " is not JSON serializable"
  | arity cause => cause.message

end Mismatch

/-! ## Values out of their range -/

/-- Why a value of the right kind cannot be used. -/
inductive BadValue where
  | byteRange
  | negativeCount
  /-- The item at this index of a list of pairs is of another length. -/
  | pairLength (index length : Nat)
  /-- A step of a pipeline that is neither a name nor a dictionary. -/
  | entryKind
  | unknownLevel (shown : String)
  /-- An integer with too many digits. -/
  | excess (cause : Decimal.Excess)
  /-- A number that no character has. -/
  | charRange
  /-- A text without an encoding. -/
  | halves (cause : Text.Utf8.Halves)
  /-- A distance from universal time of a day or more. -/
  | zoneRange (shown : String)
  /-- Whatever a function or a transform of a caller says. -/
  | refused (message : String)
  deriving DecidableEq, Repr

namespace BadValue

def message : BadValue → String
  | byteRange => ItemFlaw.range.message "byte"
  | negativeCount => "negative count"
  | pairLength index length =>
    "dictionary update sequence element #" ++ toString index ++ " has length " ++ toString length ++
      "; 2 is required"
  | entryKind => "Invalid transform entry type"
  | unknownLevel shown => "Unknown level: " ++ shown
  | excess cause => cause.message
  | halves cause => cause.message
  | charRange => "chr() arg not in range(0x110000)"
  | zoneRange shown =>
    "offset must be a timedelta strictly between -timedelta(hours=24) and " ++
      "timedelta(hours=24), not " ++ shown ++ "."
  | refused message => message

end BadValue

/-- Which limit of the machine a number exceeds. -/
inductive Overflow where
  /-- A length that no buffer can have. -/
  | size
  /-- A number of more digits than any memory can hold. -/
  | digits
  /-- The number of a character that does not fit into 32 bits with a sign. -/
  | character
  /-- An integer beyond every floating-point number. -/
  | float
  deriving DecidableEq, Repr

namespace Overflow

def message : Overflow → String
  | size => "cannot fit 'int' into an index-sized integer"
  | digits => "too many digits in integer"
  | character => "Python int too large to convert to C int"
  | float => "int too large to convert to float"

end Overflow

/-! ## Files and options -/

/-- Why a file cannot be opened. -/
inductive FileFlaw where
  | missing
  | notDirectory
  | isDirectory
  /-- A name along the path, or the whole path, is too long. -/
  | tooLong
  /-- The path holds U+0000, so it is none. -/
  | nullByte
  deriving DecidableEq, Repr

/-- A path as a caller gives it: a text, or the bytes of one. -/
inductive PathName where
  | text (s : String)
  | bytes (bs : Bytes)
  deriving DecidableEq, Repr

namespace PathName

/-- The path in quotes. -/
def shown : PathName → String
  | text s => Text.Quoted.string s
  | bytes bs => Text.Quoted.bytes false bs

/-- The path as a text. -/
def toText : PathName → String
  | text s => s
  | bytes bs => String.ofList (Text.FileName.ofBytes bs)

/-- Another path of the same form: a text as it is, or as bytes. -/
def withText (p : PathName) (s : String) : PathName :=
  match p with
  | text _ => text s
  | bytes _ => bytes (Text.FileName.toBytes s.toList)

/-- The halves of pairs that keep the path from being bytes. -/
def halves? : PathName → Option Text.Utf8.Halves
  | text s => Text.FileName.halves? s
  | bytes _ => none

end PathName

namespace FileFlaw

/-- The number and the words that the system gives to the flaw; none for a path that is none. -/
def ofSystem? : FileFlaw → Option (Nat × String)
  | missing => some (2, "No such file or directory")
  | notDirectory => some (20, "Not a directory")
  | isDirectory => some (21, "Is a directory")
  | tooLong => some (36, "File name too long")
  | nullByte => none

/-- The text of the flaw at a path. -/
def message (flaw : FileFlaw) (path : PathName) : String :=
  match flaw.ofSystem? with
  | some (number, words) => "[Errno " ++ toString number ++ "] " ++ words ++ ": " ++ path.shown
  | none => "embedded null byte"

end FileFlaw

/-- Why the value of a command line option cannot be used. -/
inductive OptionFlaw where
  /-- Neither the configuration nor an option names a transform. -/
  | noTransforms
  /-- The configuration is no mapping. -/
  | config
  /-- A parameter that is not of the form `NAME.KEY=VALUE`. -/
  | paramForm (shown : String)
  /-- A parameter for a transform that no step names. -/
  | paramName (shown : String)
  deriving DecidableEq, Repr

namespace OptionFlaw

def message : OptionFlaw → String
  | noTransforms => "no transforms given; use --config or --transform"
  | config => "Invalid value for --config: config must be a mapping with a 'transforms' list"
  | paramForm shown => "Invalid value for --param: expected NAME.KEY=VALUE, got " ++ shown
  | paramName shown =>
    "Invalid value for --param: no transform named " ++ shown ++ " in the pipeline"

end OptionFlaw

/-! ## Reports -/

/-- The stable codes of the faults of transforms. -/
inductive Code where
  | general
  | nullParameter
  | lengthMismatch
  | outOfRange
  | unusable
  | unknownTransform
  deriving DecidableEq, Repr

namespace Code

def text : Code → String
  | general => "TRANSFORM_ERROR"
  | nullParameter => "NULL_PARAMETER"
  | lengthMismatch => "LENGTH_MISMATCH"
  | outOfRange => "INDEX_OUT_OF_RANGE"
  | unusable => "INVALID_ARGUMENT"
  | unknownTransform => "UNKNOWN_TRANSFORM"

end Code

/-- The facts behind a message. -/
inductive Detail where
  | none
  | parameter (name : Value)
  | lengths (expected actual : Value)

/-- The account of a fault of a transform. -/
structure Report where
  code : Code
  message : Value
  transform : Value
  detail : Detail

namespace Report

/-- A report in the words of its maker. -/
def stated (code : Code) (message transform : Value) : Report := ⟨code, message, transform, .none⟩

def nullParameter (parameter transform : Value) : Report :=
  ⟨.nullParameter, .text (parameter.plain ++ " must not be None"), transform, .parameter parameter⟩

def lengthMismatch (expected actual transform : Value) : Report :=
  ⟨.lengthMismatch,
    .text ("all byte arrays must be of same length doing bitwise operation (expected " ++
      expected.plain ++ ", got " ++ actual.plain ++ ")"),
    transform, .lengths expected actual⟩

/-- No transform has the name; `text` is the name in plain form. -/
def unknownTransform (name : Value) (text : String) : Report :=
  ⟨.unknownTransform, .text ("unknown transform '" ++ text ++ "'"), name, .none⟩

/-- The report as a dictionary. -/
def toDict (r : Report) : Value :=
  .dict [(.text "error", .dict [(.text "code", .text r.code.text), (.text "message", r.message),
    (.text "transform", r.transform)])]

end Report

/-! ## All faults -/

/-- What went wrong. -/
inductive Fault where
  | nullParameter (parameter : String) (transform : Option String)
  | lengthMismatch (expected actual : Nat) (transform : String)
  /-- The range from `first` to before `last` does not lie inside a buffer. -/
  | outOfRange (first last : Int) (length : Nat) (transform : String)
  | unusable (cause : Objection) (transform : Option String)
  /-- No transform has this name; `text` is the name in plain form. -/
  | unknownTransform (name : Value) (text : String)
  /-- A fault of a transform that is told in the words of its report. -/
  | reported (report : Report)
  | wrongKind (cause : Mismatch)
  | badValue (cause : BadValue)
  | overflow (cause : Overflow)
  | noAttribute (kind property : String)
  /-- A character is asked of a text that is too short for it. -/
  | noCharacter
  /-- Nothing is found at a key, given in quotes. -/
  | noEntry (shown : String)
  /-- A field of a transform is assigned to. -/
  | frozen (field : String)
  | json (cause : Json.Fault)
  | encoding (cause : Text.Utf8.Fault)
  /-- A configuration text that is not well formed. -/
  | markup
  /-- A configuration text whose parts stand inside one another too deep. -/
  | tooDeep
  | file (flaw : FileFlaw) (path : PathName)
  | option (cause : OptionFlaw)

namespace Fault

/-- The name of a transform as a value; null if there is none. -/
def named (transform : Option String) : Value := (transform.map Value.text).getD .null

/-- The message of a range outside a buffer. -/
def rangeMessage (first last : Int) (length : Nat) : String :=
  "range [" ++ Decimal.integerString first ++ ", " ++ Decimal.integerString last ++
    ") is out of bounds for length " ++ toString length

/-- The report of a fault, if it is one of a transform or of its parameters. -/
def report? : Fault → Option Report
  | nullParameter parameter transform => some (.nullParameter (.text parameter) (named transform))
  | lengthMismatch expected actual transform =>
    some (.lengthMismatch (.int expected) (.int actual) (.text transform))
  | outOfRange first last length transform =>
    some (.stated .outOfRange (.text (rangeMessage first last length)) (.text transform))
  | unusable cause transform => some (.stated .unusable (.text cause.message) (named transform))
  | unknownTransform name text => some (.unknownTransform name text)
  | reported report => some report
  | _ => none

/-- The fault with another name for the transform that it is one of, if it names any. -/
def relabelled (label : Value) (fault : Fault) : Fault :=
  match fault.report? with
  | some ⟨_, _, .null, _⟩ => fault
  | some r => reported { r with transform := label }
  | none => fault

/-- The range from `first` to before `last` does not lie inside a buffer. It is not said of numbers
with too many digits to be written. -/
def ofRange (first last : Int) (length : Nat) (transform : String) : Fault :=
  if Decimal.isWritable first && Decimal.isWritable last then outOfRange first last length transform
  else badValue (.excess .written)

/-- The text of a fault. -/
def message (fault : Fault) : String :=
  match fault.report? with
  | some report => report.message.plain
  | none =>
    match fault with
    | wrongKind cause => cause.message
    | badValue cause => cause.message
    | overflow cause => cause.message
    | noAttribute kind property => "'" ++ kind ++ "' object has no attribute '" ++ property ++ "'"
    | noCharacter => "string index out of range"
    | noEntry shown => shown
    | frozen field => "cannot assign to field " ++ Text.Quoted.string field
    | json cause => cause.message
    | encoding cause => cause.message
    | tooDeep => "maximum recursion depth exceeded"
    | file flaw path => flaw.message path
    | option cause => cause.message
    | _ => ""

end Fault

/-! ## Texts that may be refused -/

/-- An integer in base ten. -/
def integerText (n : Int) : Except Fault String :=
  (Decimal.write n).mapError fun e => .badValue (.excess e)

namespace Value

/-- The quoted form of a value, for a message. -/
def quoted (contents : Nat → Bytes) (v : Value) : Except Fault String :=
  if v.isWritable then .ok (v.shown contents) else .error (.badValue (.excess .written))

/-- The plain form of a value, for a message. -/
def printed (contents : Nat → Bytes) (v : Value) : Except Fault String :=
  if v.isWritable then .ok (v.display contents) else .error (.badValue (.excess .written))

end Value

end Octets
