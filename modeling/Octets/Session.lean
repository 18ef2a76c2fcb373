import Octets.Log.Logging
import Octets.Pipeline
import Octets.Transform.Loose

/-!
# Sessions

A session is a series of calls over named objects: buffers, generators, transforms and engines, with
the files of a working directory and the logging that all engines share. `perform` answers one call
and gives the world behind it; a call that is refused may still have changed the world up to where
it stopped.

Two names may stand for one buffer. Each transform that is made is an object of its own, and every
engine has a registry of its own.
-/

namespace Octets

/-- An engine: its registry, and the number under which it owns its log handlers. -/
structure Engine where
  serial : Nat
  registry : Registry

/-- A transform that has been made, as an object of its own. It may be given a label of its own, by
which its faults then name it. -/
structure Instance where
  serial : Nat
  transform : Made
  label : Option Value

namespace Instance

/-- Gives a field another value, past all checks; the field of the name is the label. -/
def overwrite (i : Instance) (field : String) (v : Value) : Instance :=
  if field = "name" then { i with label := some v }
  else { i with transform := i.transform.force field v }

/-- Applies the transform to a value. -/
def apply (i : Instance) (v : Value) (inPlace : Bool) : Action Nat :=
  match i.label with
  | some label => (i.transform.apply v inPlace).adapt (Fault.relabelled label)
  | none => i.transform.apply v inPlace

end Instance

/-- All that a session can see and change. -/
structure World where
  store : Store
  logging : Log.Logging
  files : Files
  /-- The time stamp of log records. -/
  stamp : String
  /-- The number of the next object. -/
  serial : Nat
  engines : List (String × Engine)
  buffers : List (String × Value)
  generators : List (String × Value)
  instances : List (String × Instance)

namespace Session

/-! ## Calls and replies -/

/-- What a result is called in addition, if it is. -/
abbrev Naming := Option String

/-- One call of a session. Engines are made when they are first named. -/
inductive Call where
  /-- Names a value as a buffer. -/
  | buffer (id : String) (v : Value)
  /-- Names a generator. -/
  | generator (id : String) (v : Value)
  /-- Writes one byte of a buffer. -/
  | poke (buffer : String) (index : Nat) (byte : UInt8)
  | build (id engine : String) (name params : Value)
  | fromParams (id : String) (family : Family) (params : Value)
  | construct (id : String) (family : Family) (args : List Value)
  | inspect (instanceId : String)
  | transform (instanceId buffer : String) (inPlace : Bool) (naming : Naming)
  | apply (engine buffer : String) (name params : Value) (inPlace : Bool) (naming : Naming)
  | pipeline (engine buffer : String) (transforms : Value) (inPlace : Bool) (naming : Naming)
  /-- Assigns to a field of a transform. -/
  | assign (instanceId field : String) (v : Value)
  /-- Assigns to a field of a transform past its checks. -/
  | force (instanceId field : String) (v : Value)
  | same (a b : String)
  | register (engine name : String) (family : Family) (defaults : Value)
  | names (engine : String)
  | describe (engine : String) (name params : Value)
  /-- Makes an engine anew, with extensions. -/
  | discover (engine : String) (extensions : List Extension)
  | configure (engine : String) (level path : Value)
  | close (engine : String)
  /-- Writes a log record; the message may be a template for the arguments. -/
  | log (level : Int) (logger message : String) (args : List Value) (exception : Option String)
  | readLog (path : String)

/-- The answer to a call. -/
inductive Reply where
  | done
  | poked (ok : Bool)
  | made (t : Made) (description : String)
  | result (ref : Nat) (reused : Bool) (names : List String)
  | truth (b : Bool)
  | names (names : List String)
  | text (s : String)
  | discovered (names warnings : List String)
  | configured (rootLevel : Int) (levels : List Int)
  | closed (handlers : Nat)
  | lines (values : List Value)

/-- Why a call is refused. -/
inductive Refusal where
  /-- Nothing has this name. -/
  | missing (id : String)
  | fault (cause : Fault)

/-- The outcome of a call. -/
abbrev Outcome := Except Refusal Reply

/-! ## Names -/

/-- What a name stands for. -/
def find? {α : Type} (table : List (String × α)) (id : String) : Option α :=
  (table.find? fun e => e.1 = id).map (·.2)

/-- Lets a name stand for something. -/
def bind {α : Type} : List (String × α) → String → α → List (String × α)
  | [], id, a => [(id, a)]
  | (key, b) :: rest, id, a => if key = id then (id, a) :: rest else (key, b) :: bind rest id a

/-- The names of a buffer, sorted. -/
def namesOf (buffers : List (String × Value)) (ref : Nat) : List String :=
  ((buffers.filter fun e => e.2.isBuffer ref).map (·.1)).mergeSort fun a b => decide (a ≤ b)

end Session

namespace World

open Session

/-- A world with the files of a working directory and nothing else. -/
def initial (files : Files) (stamp : String) : World where
  store := .empty
  logging := .initial
  files := files
  stamp := stamp
  serial := 0
  engines := []
  buffers := []
  generators := []
  instances := []

/-- Writes log records. -/
def emit (w : World) (records : List Log.Record) : World :=
  { w with files := w.logging.emitAll w.stamp w.files records }

/-- Runs an action over the store. The steps it enters into the journal become log records. -/
def run {α : Type} (w : World) (action : Action α) : Except Fault α × World :=
  let (outcome, store) := action.outcome w.store
  let w := { w with store := { store with journal := [] } }
  (outcome, w.emit (store.journal.map Log.ofApplied))

/-- The engine of a name, made if there is none. -/
def engine (w : World) (id : String) : Engine × World :=
  match find? w.engines id with
  | some e => (e, w)
  | none =>
    let e : Engine := ⟨w.serial, .builtin⟩
    (e, { w with serial := w.serial + 1, engines := w.engines ++ [(id, e)] })

/-- Gives an engine a new registry. -/
def setRegistry (w : World) (id : String) (e : Engine) (r : Registry) : World :=
  { w with engines := bind w.engines id { e with registry := r } }

/-- The answer with a transform: what it is and what it does. -/
def account (w : World) (t : Made) : Outcome :=
  match t.describe w.store.bytes with
  | .ok description => .ok (.made t description)
  | .error fault => .error (.fault fault)

/-- Makes a transform and names it. -/
def make (w : World) (id : String) (action : Action Transform) : Outcome × World :=
  match w.run action with
  | (.error fault, w) => (.error (.fault fault), w)
  | (.ok t, w) =>
    let made : Instance := ⟨w.serial, .sound t, none⟩
    let w := { w with serial := w.serial + 1, instances := bind w.instances id made }
    (w.account made.transform, w)

/-- Runs an action on a named buffer and names the result. -/
def change (w : World) (buffer : String) (naming : Naming) (action : Value → Action Nat) :
    Outcome × World :=
  match find? w.buffers buffer with
  | none => (.error (.missing buffer), w)
  | some v =>
    match w.run (action v) with
    | (.error fault, w) => (.error (.fault fault), w)
    | (.ok ref, w) =>
      let w := match naming with
        | some id => { w with buffers := bind w.buffers id (.buffer ref) }
        | none => w
      (.ok (.result ref (v.isBuffer ref) (namesOf w.buffers ref)), w)

/-- Answers with the result of an action. -/
def reply {α : Type} (w : World) (action : Action α) (answer : α → Reply) : Outcome × World :=
  match w.run action with
  | (.error fault, w) => (.error (.fault fault), w)
  | (.ok a, w) => (.ok (answer a), w)

/-- Answers with a named transform. -/
def withInstance (w : World) (id : String) (answer : Instance → Outcome × World) :
    Outcome × World :=
  match find? w.instances id with
  | none => (.error (.missing id), w)
  | some i => answer i

/-- Gives a field of a named transform another value, past all checks. -/
def overwrite (w : World) (id field : String) (v : Value) : Outcome × World :=
  w.withInstance id fun i =>
    (.ok .done, { w with instances := bind w.instances id (i.overwrite field v) })

/-- Writes one byte of a named buffer, if it is one that can be written and is long enough. -/
def poke (w : World) (id : String) (index : Nat) (byte : UInt8) : Outcome × World :=
  match find? w.buffers id with
  | none => (.error (.missing id), w)
  | some (.buffer ref) =>
    let bs := w.store.bytes ref
    if index < bs.length then
      (.ok (.poked true), { w with store := w.store.overwrite ref (bs.set index byte) })
    else (.ok (.poked false), w)
  | some _ => (.ok (.poked false), w)

/-- Are two named transforms one object, or equal? -/
def same (w : World) (a b : String) : Outcome × World :=
  w.withInstance a fun i =>
    w.withInstance b fun j =>
      (.ok (.truth (i.serial == j.serial || i.transform.same j.transform)), w)

/-- Makes an engine anew. Extensions that are no families are warned of, if warnings are logged. -/
def discover (w : World) (id : String) (extensions : List Extension) : Outcome × World :=
  let registry := Registry.builtin.extend extensions
  let warnings := if w.logging.rootLevel ≤ Log.warning then Extension.warnings extensions else []
  let w := w.emit (warnings.map Log.ofWarning)
  let e : Engine := ⟨w.serial, registry⟩
  (.ok (.discovered registry.names (warnings.map ("WARNING " ++ ·))),
    { w with serial := w.serial + 1, engines := bind w.engines id e })

/-- Configures the logging through an engine. -/
def configure (w : World) (id : String) (level path : Value) : Outcome × World :=
  let (e, w) := w.engine id
  let (outcome, logging, files) :=
    w.logging.configure w.files w.store.bytes e.serial level path
  let w := { w with logging := logging, files := files }
  match outcome with
  | .ok () => (.ok (.configured logging.rootLevel (logging.handlers.map (·.level))), w)
  | .error fault => (.error (.fault fault), w)

/-- Writes a log record. One whose arguments do not fit is dropped. -/
def log (w : World) (level : Int) (logger message : String) (args : List Value)
    (exception : Option String) : Outcome × World :=
  match Log.Template.fill w.store.bytes message args with
  | some message => (.ok .done, w.emit [⟨level, logger, message, exception⟩])
  | none => (.ok .done, w)

/-- Reads a log file. -/
def readLog (w : World) (path : String) : Outcome :=
  match w.files.read path with
  | .error flaw => .error (.fault (.file flaw (.text path)))
  | .ok content =>
    match Log.readLines content with
    | .ok values => .ok (.lines values)
    | .error fault => .error (.fault fault)

end World

namespace World

open Session

/-- Answers one call. -/
def perform (w : World) : Call → Outcome × World
  | .buffer id v => (.ok .done, { w with buffers := bind w.buffers id v })
  | .generator id v => (.ok .done, { w with generators := bind w.generators id v })
  | .poke buffer index byte => w.poke buffer index byte
  | .build id engine name params =>
    let (e, w) := w.engine engine
    w.make id (e.registry.build name params)
  | .fromParams id family params => w.make id (family.ofValue params)
  | .construct id family args => w.make id (family.ofArguments args)
  | .inspect id => w.withInstance id fun i => (w.account i.transform, w)
  | .transform id buffer inPlace naming =>
    w.withInstance id fun i => w.change buffer naming fun v => i.apply v inPlace
  | .apply engine buffer name params inPlace naming =>
    let (e, w) := w.engine engine
    w.change buffer naming fun v => Pipeline.runOne e.registry v name params inPlace
  | .pipeline engine buffer transforms inPlace naming =>
    let (e, w) := w.engine engine
    w.change buffer naming fun v => Pipeline.run e.registry v transforms inPlace
  | .assign id field v =>
    w.withInstance id fun i =>
      if i.transform.comparable then (.error (.fault (.frozen field)), w)
      else w.overwrite id field v
  | .force id field v => w.overwrite id field v
  | .same a b => w.same a b
  | .register engine name family defaults =>
    let (e, w) := w.engine engine
    match Dict.update w.store.bytes [] defaults with
    | .error fault => (.error (.fault fault), w)
    | .ok defaults => (.ok .done, w.setRegistry engine e (e.registry.register name family defaults))
  | .names engine =>
    let (e, w) := w.engine engine
    (.ok (.names e.registry.names), w)
  | .describe engine name params =>
    let (e, w) := w.engine engine
    w.reply (e.registry.describe name params) .text
  | .discover engine extensions => w.discover engine extensions
  | .configure engine level path => w.configure engine level path
  | .close engine =>
    let (e, w) := w.engine engine
    let w := { w with logging := w.logging.close e.serial }
    (.ok (.closed w.logging.handlers.length), w)
  | .log level logger message args exception => w.log level logger message args exception
  | .readLog path => (w.readLog path, w)

end World

end Octets
