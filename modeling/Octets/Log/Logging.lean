import Octets.Files
import Octets.Log.Record
import Octets.Source

/-!
# Logging

The root level and the handlers in use. A handler writes the records that reach it to the end of a
file, one line each. It belongs to an engine, which keeps at most one for a path; `close` detaches
all handlers of an engine.

A record reaches a handler if its level is above zero, at least the root level and at least the
handler's.
-/

namespace Octets.Log

/-- A handler: the engine it belongs to, the path as it was given, the route of the file, and its
level. -/
structure Handler where
  owner : Nat
  path : PathName
  route : Route
  level : Int
  deriving DecidableEq, Repr

/-- The root level, and the handlers in the order in which they were attached. -/
structure Logging where
  rootLevel : Int
  handlers : List Handler
  deriving DecidableEq, Repr

namespace Logging

/-- Before anything is configured. -/
def initial : Logging := ⟨warning, []⟩

/-- Does the handler belong to the engine, for this path? -/
def isFor (owner : Nat) (path : PathName) (h : Handler) : Bool := h.owner == owner && h.path == path

/-- Sets the level of the handler of an engine for a path. -/
def relevel (logging : Logging) (owner : Nat) (path : PathName) (level : Int) : Logging :=
  { logging with
    handlers := logging.handlers.map fun h =>
      if isFor owner path h then { h with level := level } else h }

/-- Detaches the handlers of an engine. -/
def close (logging : Logging) (owner : Nat) : Logging :=
  { logging with handlers := logging.handlers.filter fun h => h.owner != owner }

/-- The path that a value is: a text or bytes. -/
def pathOf (v : Value) : Except Fault PathName :=
  match v.unhashable?, v.asText?, v with
  | some kind, _, _ => .error (.wrongKind (.unhashable kind))
  | none, some s, _ => .ok (.text s)
  | none, none, .bytes bs => .ok (.bytes bs)
  | none, none, v => .error (.wrongKind (.notPath v.kind))

/-- The route of the file that a handler for a path writes. -/
def fileOf (path : PathName) : Route := Route.settle (Route.ofPath (Route.settled path.toText))

/-- Opens the file of a handler for a path, by its full path. -/
def openFile (files : Files) (path : PathName) : Except Fault Files :=
  Files.opening (path.withText (files.fullPath path.toText))
    (files.create (Route.settled path.toText))

/-- Attaches a handler for a path, or sets the level of the one there is. A new one opens its
file. -/
def attach (logging : Logging) (files : Files) (owner : Nat) (level : Int) (path : Value) :
    Except Fault (Logging × Files) := do
  let path ← pathOf path
  if logging.handlers.any (isFor owner path) then return (logging.relevel owner path level, files)
  else
    let files ← openFile files path
    let handler : Handler := ⟨owner, path, fileOf path, level⟩
    return ({ logging with handlers := logging.handlers ++ [handler] }, files)

/-- The level that a value names. -/
def levelFrom (contents : Nat → Bytes) (v : Value) : Except Fault Int := do
  levelOf (← v.printed contents)

/-- Sets the root level and, if there is a path, attaches a handler of this level. A name that is no
level changes nothing; a path that cannot be used leaves the new root level. -/
def configure (logging : Logging) (files : Files) (contents : Nat → Bytes) (owner : Nat)
    (level path : Value) : Except Fault Unit × Logging × Files :=
  match levelFrom contents level with
  | .error fault => (.error fault, logging, files)
  | .ok n =>
    let logging := { logging with rootLevel := n }
    if path.holds contents then
      match logging.attach files owner n path with
      | .ok (logging, files) => (.ok (), logging, files)
      | .error fault => (.error fault, logging, files)
    else (.ok (), logging, files)

/-- Does a record of this level reach the handler? -/
def reaches (logging : Logging) (level : Int) (h : Handler) : Bool :=
  0 < level && logging.rootLevel ≤ level && h.level ≤ level

/-- Writes a record, as its line, through every handler that it reaches. One whose line has no
encoding is lost. -/
def emit (logging : Logging) (stamp : String) (files : Files) (r : Record) : Files :=
  match Text.Utf8.ofString (r.line stamp ++ "\n") with
  | .error _ => files
  | .ok content =>
    (logging.handlers.filter (logging.reaches r.level)).foldl
      (fun files h => files.append h.route content) files

/-- Writes records in order. -/
def emitAll (logging : Logging) (stamp : String) (files : Files) (rs : List Record) : Files :=
  rs.foldl (fun files r => logging.emit stamp files r) files

end Logging

/-! ## Records of the library -/

/-- The logger of the engine. -/
def engineLogger : String := "bytetransform.engine"

/-- The record of an applied step. -/
def ofApplied (a : Applied) : Record where
  level := debug
  logger := engineLogger
  message :=
    "applied transform " ++ a.name ++ " (" ++ a.description ++ "): " ++
      toString a.before ++ " -> " ++
      toString a.after ++ " bytes (reused=" ++ Value.boolWord a.reused ++ ")"
  exception := none

/-- The record of a warning. -/
def ofWarning (text : String) : Record := ⟨warning, engineLogger, text, none⟩

end Octets.Log
