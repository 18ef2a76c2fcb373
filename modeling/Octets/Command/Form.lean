import Octets.Fault

/-!
# Forms of commands

What a command line may hold for a command: its options, each with what its value may be, and its
operands. The reader of command lines and the help text both go by the form, so that neither knows
of an option that the other does not.
-/

namespace Octets.Command

/-- What an option is for. -/
inductive Key where
  | help
  | version
  | out
  | config
  | transform
  | param
  | hex
  | logLevel
  | logPath
  deriving DecidableEq, Repr

/-- What a value may be. -/
inductive Allowed where
  | text
  /-- A path; that of a file, or of a directory too if `directory` holds. Something must be there if
  `present` holds. -/
  | path (present directory : Bool)
  | word (words : List String)
  deriving DecidableEq, Repr

namespace Allowed

/-- What a path leads to, in a word. -/
def noun (directory : Bool) : String := if directory then "path" else "file"

/-- The name of the value in a help text. -/
def label : Allowed → String
  | text => "TEXT"
  | path _ directory => (noun directory).toUpper
  | word words => "[" ++ "|".intercalate words ++ "]"

end Allowed

/-- An option: its long name, perhaps a letter as its short name, what its value may be if it takes
one, and a line of help. -/
structure Opt where
  key : Key
  name : String
  letter : Option Char
  value : Option Allowed
  help : String
  deriving DecidableEq, Repr

namespace Opt

/-- The long name as it is written. -/
def long (o : Opt) : String := "--" ++ o.name

/-- The short name as it is written. -/
def short? (o : Opt) : Option String := o.letter.map fun c => String.ofList ['-', c]

/-- Both names in quotes, as messages give them. -/
def hint (o : Opt) : String :=
  " / ".intercalate ((o.long :: o.short?.toList).map fun n => "'" ++ n ++ "'")

/-- The names with that of the value, as help texts give them. -/
def heading (o : Opt) : String :=
  ", ".intercalate (o.short?.toList ++ [o.long]) ++
    match o.value with
    | none => ""
    | some allowed => " " ++ allowed.label

end Opt

/-- An operand: its name, and what it may be. -/
structure Operand where
  name : String
  value : Allowed
  deriving DecidableEq, Repr

/-- The form of a command. -/
structure Form where
  /-- The command as it is called, from the name of the program on. -/
  name : String
  /-- What stands behind the options in a line about its use. -/
  behind : List String
  /-- The paragraphs about it in its help text. -/
  about : List String
  options : List Opt
  operands : List Operand
  /-- May options stand behind operands? -/
  mixed : Bool
  deriving DecidableEq, Repr

namespace Form

/-- How the command is used, in one line. -/
def usage (form : Form) : String :=
  "Usage: " ++ " ".intercalate (form.name :: "[OPTIONS]" :: form.behind)

/-- The option of a long name. -/
def long? (form : Form) (name : String) : Option Opt := form.options.find? fun o => o.long = name

/-- The option of a letter. -/
def letter? (form : Form) (c : Char) : Option Opt := form.options.find? fun o => o.letter = some c

/-- The option for a purpose. -/
def opt? (form : Form) (key : Key) : Option Opt := form.options.find? fun o => o.key = key

end Form

/-! ## The forms of this program -/

/-- The name of the program. -/
def program : String := "bytetransform"

/-- The version of the program. -/
def version : String := "0.1.0"

def helpOption : Opt := ⟨.help, "help", none, none, "Show this message and exit."⟩

def versionOption : Opt := ⟨.version, "version", none, none, "Show the version and exit."⟩

/-- The program without a command. -/
def mainForm : Form where
  name := program
  behind := ["COMMAND", "[ARGS]..."]
  about := ["bytetransform - Composable transforms over byte buffers."]
  options := [versionOption, helpOption]
  operands := []
  mixed := false

def listForm : Form where
  name := program ++ " list"
  behind := []
  about := ["List available transforms."]
  options := [helpOption]
  operands := []
  mixed := true

/-- The file that is transformed. -/
def inputFile : Operand := ⟨"INPUT_FILE", .path true false⟩

/-- The levels that can be asked for. -/
def levels : List String := ["DEBUG", "INFO", "WARNING", "ERROR"]

def runForm : Form where
  name := program ++ " run"
  behind := [inputFile.name]
  about :=
    ["Apply a pipeline of transforms to INPUT_FILE.",
      "Steps come from the config's 'transforms' list followed by any -t options. " ++
        "--param values apply to every step with the matching name."]
  options :=
    [⟨.out, "out", some 'o', some (.path false false),
        "Output file path (defaults to INPUT_FILE.out)"⟩,
      ⟨.config, "config", some 'c', some (.path true true),
        "Path to YAML or JSON configuration file with a transforms list"⟩,
      ⟨.transform, "transform", some 't', some .text,
        "Transform name to append to the pipeline (repeatable)"⟩,
      ⟨.param, "param", some 'p', some .text,
        "Parameter for a transform given as NAME.KEY=VALUE; " ++
          "VALUE is read as JSON, else as a string " ++
          "(use 0x.. for hex buffers)"⟩,
      ⟨.hex, "hex", none, none, "Print the result as hex instead of writing a file"⟩,
      ⟨.logLevel, "log-level", none, some (.word levels),
        "Set logging level for the bytetransform logger"⟩,
      ⟨.logPath, "log-path", none, some (.path false false),
        "Append JSONL log records to this file"⟩,
      helpOption]
  operands := [inputFile]
  mixed := true

/-- A command of the program. -/
inductive Verb where
  | list
  | run
  deriving DecidableEq, Repr

namespace Verb

/-- The commands, by the alphabet of their names. -/
def all : List Verb := [list, run]

def name : Verb → String
  | list => "list"
  | run => "run"

def form : Verb → Form
  | list => listForm
  | run => runForm

/-- The command of a name. -/
def ofName? (name : String) : Option Verb := all.find? fun v => v.name = name

end Verb

end Octets.Command
