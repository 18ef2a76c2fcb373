import Octets.Command.Form
import Octets.Files
import Octets.Text.Similar

/-!
# Reading command lines

The options and operands that a command line gives. An argument that starts with a dash and goes on
holds options: one by its long name, perhaps with its value behind an equals sign, or letters, the
last of which may take what follows it as its value. A value that is not in the same argument is the
next one, whatever it looks like. Two dashes alone end the options.

`Form.read` takes a command line apart; `Form.misuse?` says what is wrong with the values, if
anything is. What can be wrong with a command line is a `Misuse`.
-/

namespace Octets.Command

/-! ## Misuse -/

/-- Why a value is not allowed. -/
inductive ValueFlaw where
  /-- Nothing is there. -/
  | absent (noun path : String)
  | isDirectory (path : String)
  /-- The path holds U+0000, so nothing can be looked for at it. -/
  | noPath (path : String)
  /-- The path is no bytes, so nothing can be looked for at it. -/
  | noBytes (cause : Text.Utf8.Halves)
  | noWord (given : String) (words : List String)
  deriving DecidableEq, Repr

/-- A word with its first letter in upper case. -/
def capital (word : String) : String :=
  match word.toList with
  | [] => ""
  | c :: rest => String.ofList (c.toUpper :: rest)

namespace ValueFlaw

/-- A path in quotes, as it is shown. -/
def quoted (path : String) : String :=
  Text.Quoted.string (String.ofList (Text.FileName.shown path.toList))

def message : ValueFlaw → String
  | absent noun path => capital noun ++ " " ++ quoted path ++ " does not exist."
  | isDirectory path => "File " ++ quoted path ++ " is a directory."
  | noPath path => FileFlaw.nullByte.message (.text path)
  | noBytes cause => cause.message
  | noWord given words =>
    Text.Quoted.string given ++ " is not one of " ++
      ", ".intercalate (words.map Text.Quoted.string) ++ "."

end ValueFlaw

/-- What is wrong with a command line. -/
inductive Misuse where
  | needsValue (option : String)
  | takesNoValue (option : String)
  /-- There is no such option; those of `near` are like it. -/
  | unknownOption (given : String) (near : List String)
  | unknownCommand (given : String) (near : List String)
  | noCommand
  | missingOperand (name : String)
  | extra (given : List String)
  | badValue (hint : String) (flaw : ValueFlaw)
  deriving DecidableEq, Repr

namespace Misuse

/-- What is said of names that are like one that there is not. -/
def suggestion (near : List String) : String :=
  match near with
  | [] => ""
  | [name] => " Did you mean " ++ Text.Quoted.string name ++ "?"
  | names =>
    " (Did you mean one of: " ++ ", ".intercalate (names.map Text.Quoted.string) ++ "?)"

def message : Misuse → String
  | needsValue option => "Option " ++ Text.Quoted.string option ++ " requires an argument."
  | takesNoValue option => "Option " ++ Text.Quoted.string option ++ " does not take a value."
  | unknownOption given near =>
    "No such option " ++ Text.Quoted.string given ++ "." ++ suggestion near
  | unknownCommand given near =>
    "No such command " ++ Text.Quoted.string given ++ "." ++ suggestion near
  | noCommand => "Missing command."
  | missingOperand name => "Missing argument '" ++ name ++ "'."
  | extra [given] => "Got unexpected extra argument (" ++ given ++ ")"
  | extra given => "Got unexpected extra arguments (" ++ " ".intercalate given ++ ")"
  | badValue hint flaw => "Invalid value for " ++ hint ++ ": " ++ flaw.message

/-- Is the message given without a line about the use of the command? -/
def isBare : Misuse → Bool
  | needsValue _ => true
  | takesNoValue _ => true
  | _ => false

end Misuse

/-! ## Taking a command line apart -/

/-- An option as it is given, with its value if it takes one. -/
abbrev Mention := Opt × Option String

/-- What a command line gives, in order. -/
structure Given where
  options : List Mention
  operands : List String

/-- What one argument gives: options, and perhaps at the end one whose value is the next argument,
by the name that it is called by. -/
structure Cluster where
  options : List Mention
  open? : Option (Opt × String)

namespace Form

/-- Reads letters; `rest` is what follows the dash. -/
def letters (form : Form) : List Char → Except Misuse Cluster
  | [] => .ok ⟨[], none⟩
  | c :: rest =>
    let name := String.ofList ['-', c]
    match form.letter? c with
    | none => .error (.unknownOption name [])
    | some o =>
      if o.value.isSome then
        if rest.isEmpty then .ok ⟨[], some (o, name)⟩
        else .ok ⟨[(o, some (String.ofList rest))], none⟩
      else (letters form rest).map fun more => { more with options := (o, none) :: more.options }

/-- Reads a long name, with the value behind it if there is one. -/
def long (form : Form) (name : String) (value : Option String) : Option (Except Misuse Cluster) :=
  (form.long? name).map fun o =>
    match o.value, value with
    | some _, some v => .ok ⟨[(o, some v)], none⟩
    | some _, none => .ok ⟨[], some (o, name)⟩
    | none, some _ => .error (.takesNoValue name)
    | none, none => .ok ⟨[(o, none)], none⟩

/-- Reads an argument that starts with a dash. -/
def cluster (form : Form) (arg : String) : Except Misuse Cluster :=
  let (name, value) := match Text.cut? '=' arg.toList with
    | some (name, value) => (String.ofList name, some (String.ofList value))
    | none => (arg, none)
  match form.long name value, arg.toList with
  | some read, _ => read
  | none, '-' :: '-' :: _ =>
    .error (.unknownOption name (Text.Similar.closest name (form.options.map Opt.long)))
  | none, letters => form.letters (letters.drop 1)

/-- Does an argument hold options? -/
def isOption (arg : String) : Bool :=
  match arg.toList with
  | '-' :: _ :: _ => true
  | _ => false

/-- Takes a command line apart. -/
def read (form : Form) : List String → Except Misuse Given
  | [] => .ok ⟨[], []⟩
  | arg :: rest =>
    if arg = "--" then .ok ⟨[], rest⟩
    else if isOption arg then
      match form.cluster arg, rest with
      | .error misuse, _ => .error misuse
      | .ok ⟨_, some (_, name)⟩, [] => .error (.needsValue name)
      | .ok ⟨options, some (o, _)⟩, v :: rest =>
        (read form rest).map fun g => { g with options := options ++ (o, some v) :: g.options }
      | .ok ⟨options, none⟩, rest =>
        (read form rest).map fun g => { g with options := options ++ g.options }
    else if form.mixed then (read form rest).map fun g => { g with operands := arg :: g.operands }
    else .ok ⟨[], arg :: rest⟩
  termination_by args => args.length

end Form

/-! ## What is given -/

namespace Given

/-- The values of an option, in order. -/
def values (g : Given) (key : Key) : List String :=
  g.options.filterMap fun (o, v) => if o.key = key then v else none

/-- The last value of an option, which is the one that counts. -/
def last? (g : Given) (key : Key) : Option String := (g.values key).getLast?

/-- Is an option given? -/
def has (g : Given) (key : Key) : Bool := g.options.any fun (o, _) => o.key = key

/-- The options in the order in which they are first given. -/
def order (g : Given) : List Opt := (g.options.map (·.1)).eraseDups

end Given

/-! ## Values that are allowed -/

/-- Why a value is not allowed, if it is not. -/
def Allowed.flaw? (files : Files) (allowed : Allowed) (v : String) : Option ValueFlaw :=
  match allowed with
  | text => none
  | word words => if words.contains v then none else some (.noWord v words)
  | path present directory =>
    match Text.FileName.halves? v with
    | some cause => some (.noBytes cause)
    | none =>
      match files.find v with
      | .error .nullByte => some (.noPath v)
      | .error _ => if present then some (.absent (noun directory) v) else none
      | .ok .directory => if directory then none else some (.isDirectory v)
      | .ok (.file _) => none

/-- What is wrong with the value of an option, if anything is. -/
def Given.misuse? (g : Given) (files : Files) (o : Opt) : Option Misuse := do
  let allowed ← o.value
  let v ← g.last? o.key
  let flaw ← allowed.flaw? files v
  return .badValue o.hint flaw

/-- What is wrong with operands, if anything is. -/
def operandMisuse? (files : Files) : List Operand → List String → Option Misuse
  | [], [] => none
  | [], given => some (.extra given)
  | o :: _, [] => some (.missingOperand o.name)
  | o :: more, v :: given =>
    match o.value.flaw? files v with
    | some flaw => some (.badValue ("'" ++ o.name ++ "'") flaw)
    | none => operandMisuse? files more given

/-- What is wrong with what is given, if anything is: first with the options, in the order in which
they are first given, and then with the operands. -/
def Form.misuse? (form : Form) (files : Files) (g : Given) : Option Misuse :=
  match g.order.findSome? (g.misuse? files) with
  | some misuse => some misuse
  | none => operandMisuse? files form.operands g.operands

end Octets.Command
