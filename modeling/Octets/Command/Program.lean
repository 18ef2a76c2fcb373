import Octets.Command.Help
import Octets.Command.Run
import Octets.Json.Writer

/-!
# The program

What the program does with a command line: the texts it shows, its exit code, and the files it
leaves.

A command line that is misused ends with code 2, and so does a configuration or a parameter that is
refused as the value of an option. A fault of a transform is reported as JSON and in words, with
code 1; a fault of a file or of a document in words, with code 1. Faults of other kinds are not
reported.
-/

namespace Octets.Command

/-- How the program ends. -/
structure Ending where
  code : Nat
  out : String
  err : String
  files : Files
  /-- The fault that is not reported, if there is one. -/
  unreported : Option Fault

namespace Ending

/-- A message as it is shown: without sequences that style it, and with the numbers of halves of
pairs. -/
def legible (message : String) : String :=
  String.ofList (Text.Units.shown (Text.Styling.plain message.toList))

/-- Ends well, and shows a text. -/
def shown (files : Files) (text : String) : Ending := ⟨0, text, "", files, none⟩

/-- Ends with a message about the use of a command. -/
def refused (files : Files) (form : Form) (message : String) : Ending :=
  let hint := "Try '" ++ form.name ++ " --help' for help."
  ⟨2, "", form.usage ++ "\n" ++ hint ++ "\n\nError: " ++ legible message ++ "\n", files, none⟩

/-- Ends without a report. -/
def silent (files : Files) (fault : Fault) : Ending := ⟨1, "", "", files, some fault⟩

/-- Ends because the command line is misused. A path that is none is not reported. -/
def misused (files : Files) (form : Form) (misuse : Misuse) : Ending :=
  match misuse with
  | .badValue _ (.noPath path) => silent files (.file .nullByte (.text path))
  | .badValue _ (.noBytes cause) => silent files (.badValue (.halves cause))
  | misuse =>
    if misuse.isBare then ⟨2, "", "Error: " ++ legible misuse.message ++ "\n", files, none⟩
    else refused files form misuse.message

/-- Ends with the report of a fault of a transform. -/
def reported (files : Files) (report : Report) : Ending :=
  match Json.write true report.toDict with
  | .error kind => silent files (.wrongKind (.notJson kind))
  | .ok json => ⟨1, "", json ++ "\nError: " ++ legible report.message.plain ++ "\n", files, none⟩

/-- Ends in the middle of the work. -/
def aborted (files : Files) (fault : Fault) : Ending :=
  ⟨1, "", "Error during transform: " ++ legible fault.message ++ "\nAborted!\n", files, none⟩

/-- Ends because of a fault in the work of a command. -/
def faulted (files : Files) (form : Form) (fault : Fault) : Ending :=
  match fault.report?, fault with
  | some report, _ => reported files report
  | none, .option cause => refused files form cause.message
  | none, .badValue cause => aborted files (.badValue cause)
  | none, .json (.tooDeep nest) => silent files (.json (.tooDeep nest))
  | none, .json cause => aborted files (.json cause)
  | none, .encoding cause => aborted files (.encoding cause)
  | none, .markup => aborted files .markup
  | none, .file flaw path => aborted files (.file flaw path)
  | none, fault => silent files fault

end Ending

/-! ## Commands -/

/-- A line for every name of a transform. -/
def listing : String :=
  String.join (Registry.builtin.map fun e => e.name ++ "\t" ++ e.family.summary ++ "\n")

/-- What a command does. -/
def work (verb : Verb) (given : Given) (files : Files) (stamp : String) : Ending :=
  match verb with
  | .list => .shown files listing
  | .run =>
    match (Job.ofGiven given).perform (.initial files stamp) with
    | (.ok text, w) => .shown w.files text
    | (.error fault, w) => .faulted w.files runForm fault

/-- The text that an option asks for instead of the work of its command. -/
def instead? (help : List String) (given : Given) : Option String :=
  given.options.findSome? fun (o, _) =>
    match o.key with
    | .help => some (Help.text help)
    | .version => some (program ++ ", version " ++ version ++ "\n")
    | _ => none

/-- Does what a command line asks of a command. -/
def call (verb : Verb) (files : Files) (stamp : String) (args : List String) : Ending :=
  let form := verb.form
  match form.read args with
  | .error misuse => .misused files form misuse
  | .ok given =>
    match instead? (Help.lines form) given, form.misuse? files given with
    | some text, _ => .shown files text
    | none, some misuse => .misused files form misuse
    | none, none => work verb given files stamp

/-! ## The whole program -/

/-- The help text of the program. -/
def mainHelp : List String := Help.lines mainForm ++ Help.commandTable

/-- Ends because there is no such command. One that looks like an option is read as one first. -/
def unknown (files : Files) (name : String) (args : List String) : Ending :=
  match mainForm.read (name :: args) with
  | .error misuse => .misused files mainForm misuse
  | .ok given =>
    match instead? mainHelp given with
    | some text => .shown files text
    | none =>
      .misused files mainForm
        (.unknownCommand name (Text.Similar.closest name (Verb.all.map Verb.name)))

/-- Does what a command line asks for, with the files of the working directory. -/
def perform (files : Files) (stamp : String) (args : List String) : Ending :=
  if args.isEmpty then ⟨2, "", Help.text mainHelp, files, none⟩
  else
    match mainForm.read args with
    | .error misuse => .misused files mainForm misuse
    | .ok given =>
      match instead? mainHelp given, given.operands with
      | some text, _ => .shown files text
      | none, [] => .misused files mainForm .noCommand
      | none, name :: args =>
        match Verb.ofName? name with
        | some verb => call verb files stamp args
        | none => unknown files name args

/-! ## Paths -/

/-- The path of the log that a job asks for, as far as the files show it. -/
def logPaths (files : Files) (job : Job) : List String :=
  match job.configuration files with
  | .ok config =>
    match Log.Logging.pathOf (job.pathValue config) with
    | .ok path => [path.toText]
    | .error _ => []
  | .error _ => []

/-- The paths that a command line leads to, as far as the files show them. Whoever looks for what
stands at them, and then does so once more, knows of all files that the program can read or
write. -/
def paths (files : Files) (args : List String) : List String :=
  match mainForm.read args with
  | .error _ => []
  | .ok main =>
    match runForm.read (main.operands.drop 1) with
    | .error _ => []
    | .ok given =>
      let job := Job.ofGiven given
      given.operands ++ job.config.toList ++ job.output.toList ++ job.logPath.toList ++
        [job.outputPath] ++ logPaths files job

end Octets.Command
