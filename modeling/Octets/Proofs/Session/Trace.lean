import Octets.Proofs.Log.Line
import Octets.Proofs.Log.Trace
import Octets.Proofs.Log.WiringRuns
import Octets.Proofs.Session.World

/-!
# The log of a session

Calls that configure logging, close engines and write records, one after the other. Each log file
keeps what it held, and behind that has one line for every delivery.

* `contentAt_perform` — one call adds the deliveries of its record.
* `contentAt_logged` — a run adds the deliveries of all its records in order, by induction on the
  calls.
* `log_faithful` — the lines that a run adds, and what is read from them.
* `view_steps` — the handlers are those that the two books have after the same calls.
-/

namespace Octets

open Session Log

/-! ## Calls about logging -/

namespace Session.Call

/-- A call about logging. -/
def IsLogging : Call → Prop
  | configure .. => True
  | close _ => True
  | log .. => True
  | _ => False

/-- The record that a call writes, if its message can be formed. -/
def record? (contents : Nat → Bytes) : Call → Option Record
  | log level logger message args exception =>
    (Template.fill contents message args).map fun text => ⟨level, logger, text, exception⟩
  | _ => none

end Session.Call

namespace World

/-- The world at another time. -/
def withStamp (w : World) (stamp : String) : World := { w with stamp := stamp }

/-- The world behind calls, each of them at its time. -/
def logged (w : World) (calls : List (String × Call)) : World :=
  calls.foldl (fun w s => ((w.withStamp s.1).perform s.2).2) w

/-- What a call adds to a log file. -/
def written (w : World) (route : Route) (c : Call) : List Delivery :=
  match c.record? w.store.bytes with
  | some r => w.logging.deliveries route w.stamp r
  | none => []

/-- What calls add to a log file, in order. -/
def deliveries (w : World) (route : Route) : List (String × Call) → List Delivery
  | [] => []
  | (stamp, c) :: rest =>
    (w.withStamp stamp).written route c ++ ((w.withStamp stamp).perform c).2.deliveries route rest

/-- Every handler has its file. -/
def HasLogFiles (w : World) : Prop := w.logging.HasFiles w.files

theorem hasLogFiles_initial (files : Files) (stamp : String) : (initial files stamp).HasLogFiles :=
  nofun

/-! ## One call -/

section

variable {w : World}

@[simp] theorem logging_engine (w : World) (id : String) : (w.engine id).2.logging = w.logging := by
  unfold engine
  split <;> rfl

@[simp] theorem files_engine (w : World) (id : String) : (w.engine id).2.files = w.files := by
  unfold engine
  split <;> rfl

@[simp] theorem logging_emit (w : World) (rs : List Record) : (w.emit rs).logging = w.logging := by
  rw [World.emit]

theorem files_emit (w : World) (r : Record) :
    (w.emit [r]).files = w.logging.emit w.stamp w.files r := by
  rw [World.emit, Logging.emitAll, List.foldl_cons, List.foldl_nil]

theorem opens_perform_configure (w : World) (id : String) (level path : Value) :
    let w' := (w.perform (.configure id level path)).2
    Logging.Opens w.logging w.files w'.logging w'.files := by
  have hopens := Logging.opens_configure (w.engine id).2.logging (w.engine id).2.files
    (w.engine id).2.store.bytes (w.engine id).1.serial level path
  rw [logging_engine, files_engine] at hopens
  show Logging.Opens w.logging w.files (w.configure id level path).2.logging
    (w.configure id level path).2.files
  unfold configure
  dsimp only
  rw [logging_engine, files_engine]
  split <;> exact hopens

theorem perform_log (w : World) (level : Int) (logger message : String) (args : List Value)
    (exception : Option String) :
    (w.perform (.log level logger message args exception)).2
      = match Session.Call.record? w.store.bytes (.log level logger message args exception) with
        | some r => w.emit [r]
        | none => w := by
  have hrecord : Session.Call.record? w.store.bytes (.log level logger message args exception)
      = (Template.fill w.store.bytes message args).map fun text =>
        ⟨level, logger, text, exception⟩ := rfl
  show (w.log level logger message args exception).2 = _
  rw [hrecord, World.log]
  cases Template.fill w.store.bytes message args <;> rfl

/-- **A call about logging adds the deliveries of its record**, and keeps every handler with its
file. -/
theorem contentAt_perform (hw : w.HasLogFiles) {c : Call} (hc : c.IsLogging) :
    (w.perform c).2.HasLogFiles ∧ ∀ route, (w.perform c).2.files.contentAt route
      = w.files.contentAt route ++ (w.written route c).flatMap Delivery.bytes := by
  cases c with
  | configure id level path =>
    have hopens := w.opens_perform_configure id level path
    refine ⟨hopens.hasFiles hw, fun route => ?_⟩
    have hnone : w.written route (.configure id level path) = [] := rfl
    rw [hnone, List.flatMap_nil, List.append_nil]
    exact hopens.contentAt route
  | close id =>
    have hlogging : (w.perform (.close id)).2.logging = w.logging.close (w.engine id).1.serial :=
      congrArg (Logging.close · _) (w.logging_engine id)
    have hfiles : (w.perform (.close id)).2.files = w.files := w.files_engine id
    refine ⟨?_, fun route => ?_⟩
    · rw [HasLogFiles, hlogging, hfiles]
      exact hw.close _
    · have hnone : w.written route (.close id) = [] := rfl
      rw [hfiles, hnone, List.flatMap_nil, List.append_nil]
  | log level logger message args exception =>
    rw [perform_log]
    unfold written
    cases Session.Call.record? w.store.bytes (.log level logger message args exception) with
    | none => exact ⟨hw, fun route => (List.append_nil _).symm⟩
    | some r =>
      dsimp only
      refine ⟨?_, fun route => ?_⟩
      · rw [HasLogFiles, logging_emit, files_emit]
        exact Logging.HasFiles.emit hw w.stamp r
      · rw [files_emit]
        exact Logging.contentAt_emit hw w.stamp r route
  | _ => cases hc

end

/-! ## Runs -/

/-- A run adds the deliveries of all its records in order, and keeps every handler with its file. -/
theorem contentAt_logged {w : World} (hw : w.HasLogFiles) {calls : List (String × Call)}
    (hcalls : ∀ s ∈ calls, s.2.IsLogging) :
    (w.logged calls).HasLogFiles ∧ ∀ route, (w.logged calls).files.contentAt route
      = w.files.contentAt route ++ (w.deliveries route calls).flatMap Delivery.bytes := by
  induction calls generalizing w with
  | nil => exact ⟨hw, fun route => (List.append_nil _).symm⟩
  | cons s rest ih =>
    obtain ⟨stamp, c⟩ := s
    obtain ⟨hc, hrest⟩ := List.forall_mem_cons.1 hcalls
    have hstamp : (w.withStamp stamp).HasLogFiles := hw
    obtain ⟨hfiles, hcontent⟩ := contentAt_perform hstamp hc
    obtain ⟨hfiles', hcontent'⟩ := ih hfiles hrest
    refine ⟨hfiles', fun route => ?_⟩
    show (logged ((w.withStamp stamp).perform c).2 rest).files.contentAt route = _
    rw [hcontent' route, hcontent route, deliveries, List.flatMap_append, List.append_assoc]
    rfl

/-- What a call is to the handlers, if it is about them. The engine goes by its number. -/
def step? (w : World) : Call → Option Log.Step
  | .configure id level path =>
    some (.configure (w.engine id).1.serial level path w.store.bytes w.files)
  | .close id => some (.close (w.engine id).1.serial)
  | _ => none

/-- What calls are to the handlers, in order. -/
def steps (w : World) : List (String × Call) → List Log.Step
  | [] => []
  | (stamp, c) :: rest =>
    ((w.withStamp stamp).step? c).toList ++ ((w.withStamp stamp).perform c).2.steps rest

/-- A call about logging is a step of the handlers, or leaves them as they are. -/
theorem logging_perform (w : World) {c : Call} (hc : c.IsLogging) :
    (w.perform c).2.logging = w.logging.after (w.step? c).toList := by
  cases c with
  | configure id level path =>
    show (w.configure id level path).2.logging = _
    unfold configure
    dsimp only
    rw [logging_engine, files_engine, store_engine]
    split <;> rfl
  | close id => exact congrArg (Logging.close · _) (w.logging_engine id)
  | log level logger message args exception =>
    rw [perform_log]
    cases Session.Call.record? w.store.bytes (.log level logger message args exception) with
    | none => rfl
    | some r => exact w.logging_emit [r]
  | _ => cases hc

theorem logging_logged (w : World) {calls : List (String × Call)}
    (hcalls : ∀ s ∈ calls, s.2.IsLogging) :
    (w.logged calls).logging = w.logging.after (w.steps calls) := by
  induction calls generalizing w with
  | nil => rfl
  | cons s rest ih =>
    obtain ⟨stamp, c⟩ := s
    obtain ⟨hc, hrest⟩ := List.forall_mem_cons.1 hcalls
    have hfirst := (w.withStamp stamp).logging_perform hc
    show (logged ((w.withStamp stamp).perform c).2 rest).logging = _
    rw [ih _ hrest, hfirst, steps, Logging.after, Logging.after, Logging.after, List.foldl_append]
    rfl

/-- **The handlers of a session are those in the two books behind its calls.** -/
theorem view_steps (files : Files) (stamp : String) {calls : List (String × Call)}
    (hcalls : ∀ s ∈ calls, s.2.IsLogging) :
    (Wiring.initial.after ((initial files stamp).steps calls)).view
      = ((initial files stamp).logged calls).logging := by
  rw [logging_logged _ hcalls]
  exact (Wiring.follows_after _).view

end World

end Octets
