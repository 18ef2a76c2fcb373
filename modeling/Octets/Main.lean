import Octets.Command.Program
import Octets.Log.Stamp
import Std.Time.DateTime.Timestamp

/-!
# Entry point

Looks for the files that the command line leads to, lets the program work on them, writes the files
that it has changed, and shows its texts.
-/

namespace Octets.Entry

/-- The code of the system for a file that is a directory. -/
def directoryCode : UInt32 := 21

/-- What stands at a path. -/
def look (path : String) : IO (Option Node) := do
  try
    let content ← IO.FS.readBinFile path
    return some (.file content.toList)
  catch e =>
    match e with
    | .inappropriateType _ code _ => return if code = directoryCode then some .directory else none
    | _ => return none

/-- The path of a route. -/
def pathOf (route : Route) : String :=
  match route with
  | "/" :: names => "/" ++ "/".intercalate names
  | names => "/".intercalate names

/-- Adds what stands along a path. -/
def survey (files : Files) (path : String) : IO Files := do
  let route := Route.ofPath path
  let mut files := files
  for i in List.range (route.length + 1) do
    let start := route.take i
    match ← look (pathOf start) with
    | some node => files := files.put (Route.settle start) node
    | none => pure ()
  return files

/-- Adds what stands along all paths. -/
def surveyAll (files : Files) (paths : List String) : IO Files := paths.foldlM survey files

/-- Writes the files that are not what they were. -/
def store (before after : Files) : IO Unit := do
  for (route, node) in after.nodes do
    match node with
    | .directory => pure ()
    | .file content =>
      if before.node? route ≠ some node then
        IO.FS.writeBinFile (pathOf route) (ByteArray.mk content.toArray)

/-- The time stamp of now. -/
def now : IO String := do
  let nanoseconds := (← Std.Time.Timestamp.now).toNanosecondsSinceUnixEpoch.val
  return Log.Stamp.ofMicroseconds (nanoseconds.toNat / 1000)

/-- Runs the program. -/
def run (args : List String) : IO UInt32 := do
  let empty : Files := ⟨(← IO.currentDir).toString, []⟩
  let files ← surveyAll empty (Command.paths empty args)
  let files ← surveyAll files (Command.paths files args)
  let ending := Command.perform files (← now) args
  store files ending.files
  IO.print ending.out
  IO.eprint ending.err
  match ending.unreported with
  | some fault => IO.eprintln fault.message
  | none => pure ()
  return ending.code.toUInt32

end Octets.Entry

def main (args : List String) : IO UInt32 := Octets.Entry.run args
