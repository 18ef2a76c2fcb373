import Octets.Command.Assignment
import Octets.Command.Given
import Octets.Config
import Octets.Session
import Octets.Text.Styling

/-!
# Running a pipeline on a file

The job of the command `run`: the steps of a configuration and those of the command line, with the
parameters of the command line set in them, are applied in place to the bytes of a file. The result
is shown as hex digits or written to a file.

Everything that a job needs is found good in this order: the configuration, the steps, the
parameters, the logging, the file. Only then is the pipeline run, and the output is touched only
after all of it. What can still fail is to say so: a line that names the output is shown after the
output is written.
-/

namespace Octets.Command

/-- What the command line asks for. -/
structure Job where
  input : String
  output : Option String
  config : Option String
  transforms : List String
  params : List String
  asHex : Bool
  level : Option String
  logPath : Option String
  deriving DecidableEq, Repr

namespace Job

/-- The job that a command line gives. -/
def ofGiven (g : Given) : Job where
  input := g.operands.headD ""
  output := g.last? .out
  config := g.last? .config
  transforms := g.values .transform
  params := g.values .param
  asHex := g.has .hex
  level := g.last? .logLevel
  logPath := g.last? .logPath

/-- A text that is not empty. -/
def filled (s : Option String) : Option String := s.filter fun s => !s.isEmpty

/-- The configuration; an empty one if there is no file for it. -/
def configuration (job : Job) (files : Files) : Except Fault Dict :=
  match filled job.config with
  | none => .ok []
  | some path => Config.load files path

/-- The steps: those of the configuration, then those of the command line, with all parameters
set. -/
def steps (job : Job) (config : Dict) : Except Fault (List Step) := do
  let configured := (Dict.get? config "transforms").getD (.list [])
  let steps ← Pipeline.steps (fun _ => []) configured
  let steps := steps ++ job.transforms.map fun name => ⟨.text name, .dict []⟩
  if steps.isEmpty then throw (.option .noTransforms)
  Assignment.applyAll steps job.params

/-- The level of the log: that of the command line, or else that of the configuration. -/
def levelValue (job : Job) (config : Dict) : Value :=
  match filled job.level with
  | some level => .text level
  | none => (Dict.get? config "log_level").getD (.text "INFO")

/-- The path of the log: that of the command line, or else that of the configuration. -/
def pathValue (job : Job) (config : Dict) : Value :=
  match filled job.logPath with
  | some path => .text path
  | none => Dict.get config "log_path"

/-- Where the result goes: the file that is asked for, or one beside the input. -/
def outputPath (job : Job) : String := (filled job.output).getD (job.input ++ ".out")

/-- A text as it is shown: a line without sequences that style it. The stream takes every line that
has an encoding in UTF-8; one with half of a pair has none. -/
def shown (text : String) : Except Fault String :=
  let line := Text.Styling.plain (text ++ "\n").toList
  match Text.Utf8.halves? line with
  | some cause => .error (.badValue (.halves cause))
  | none => .ok (String.ofList line)

/-- What is said once the output is written. -/
def notice (job : Job) (result : Bytes) : String :=
  "Wrote " ++ toString result.length ++ " bytes to " ++ job.outputPath

/-- Gives out the result, and what is shown. The output is written before anything is said of it, so
it stays written if that cannot be shown. -/
def deliver (job : Job) (result : Bytes) (w : World) : Except Fault String × World :=
  if job.asHex then (shown (Text.Hex.encodeString result), w)
  else
    match Files.opening (.text job.outputPath) (w.files.overwrite job.outputPath result) with
    | .error fault => (.error fault, w)
    | .ok files => (shown (job.notice result), { w with files := files })

/-- Gives out what the steps have made, if they have made something. -/
def finish (job : Job) : Except Fault Nat × World → Except Fault String × World
  | (.error fault, w) => (.error fault, w)
  | (.ok ref, w) => job.deliver (w.store.bytes ref) w

/-- Applies the steps to the bytes of the input file. -/
def transform (job : Job) (steps : List Step) (w : World) : Except Fault String × World :=
  match Files.opening (.text job.input) (w.files.read job.input) with
  | .error fault => (.error fault, w)
  | .ok content =>
    let (ref, store) := w.store.add content
    let transforms := Value.list (steps.map Step.toValue)
    job.finish (({ w with store := store } : World).run
      (Pipeline.run .builtin (.buffer ref) transforms true))

/-- The number under which the job owns its log handler. -/
def owner : Nat := 0

/-- Does the job, and gives what is shown. -/
def perform (job : Job) (w : World) : Except Fault String × World :=
  match job.configuration w.files with
  | .error fault => (.error fault, w)
  | .ok config =>
    match job.steps config with
    | .error fault => (.error fault, w)
    | .ok steps =>
      let (outcome, logging, files) := w.logging.configure w.files w.store.bytes owner
        (job.levelValue config) (job.pathValue config)
      let w := { w with logging := logging, files := files }
      let (shown, w) := match outcome with
        | .error fault => (Except.error fault, w)
        | .ok () => job.transform steps w
      (shown, { w with logging := w.logging.close owner })

end Job

end Octets.Command
