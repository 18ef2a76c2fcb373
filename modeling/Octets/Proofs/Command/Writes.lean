import Octets.Proofs.Command.Forms
import Octets.Proofs.Command.Shown
import Octets.Proofs.Log.Handlers
import Octets.Proofs.Pipeline.Modes
import Octets.Proofs.Session.World

/-!
# What the command `run` writes

The command works in place on the bytes of its input, in phases of which only two write files:
logging opens the file of the log, and records go there; and the output is overwritten at the very
end, once all else has succeeded. So a command that fails leaves all files but the log as they were,
with one exception. The output is written before the line that says so is shown, and a path with
half of a pair cannot be shown. Then the command fails although its work is done.

* `delivers_deliver`, `transforms_transform`, `ends_perform` — what the phases can do, case by case.
* `exists_works_of_transform`, `keepsBut_or_unsaid_of_transform` — the phase that applies the steps.
* `gives_of_perform`, `leaves_of_perform` — a whole job, if it succeeds and if it fails.
* `handlers_perform` — however it ends, it has no handler attached.
* `run_writes` — the command, from the command line on; `unsaid_is_written` is the exception.
-/

namespace Octets

open Octets.Files (KeepsBut)

namespace World

variable (w : World)

@[simp] theorem bytes_run {α : Type} (action : Action α) :
    (w.run action).2.store.bytes = (action.outcome w.store).2.bytes := rfl

/-- An action changes only the files of the handlers in use. -/
theorem keepsBut_run {α : Type} (action : Action α) :
    KeepsBut w.logging.Writes w.files (w.run action).2.files :=
  w.logging.keepsBut_emitAll w.stamp w.files _

end World

namespace Command

namespace Job

/-- The route is that of the log that the job asks for. -/
def IsLog (job : Job) (files : Files) (route : Route) : Prop :=
  ∃ config name, job.configuration files = .ok config ∧
    Log.Logging.pathOf (job.pathValue config) = .ok name ∧ route = Log.Logging.fileOf name

/-- The store with the bytes of the input in it, and nothing else. -/
def inputStore (content : Bytes) : Store := (Store.empty.add content).2

/-- The steps that the configuration and the job ask for make `out` of the bytes of the input,
applied on a copy of them. -/
structure Gives (job : Job) (files : Files) (config : Dict) (steps : List Step)
    (content out : Bytes) : Prop where
  isConfigured : job.configuration files = .ok config
  isPlanned : job.steps config = .ok steps
  isRead : files.read job.input = .ok content
  isCopied : ∀ v, (inputStore content).Holds v content →
    ∃ ref s, (Pipeline.run .builtin v (.list (steps.map Step.toValue)) false).outcome
      (inputStore content) = (.ok ref, s) ∧ s.bytes ref = out

/-- The output has the bytes. No other file is changed, but for those that `changed` holds of. -/
def HasWritten (job : Job) (changed : Route → Prop) (files : Files) (out : Bytes) (files' : Files) :
    Prop :=
  files'.read job.outputPath = .ok out ∧
    KeepsBut (fun route => route = Files.routeOf job.outputPath ∨ changed route) files files'

/-- The bytes are given out, with the text that is shown and the files that are left: as hex digits,
or as the content of the output file, which then is said. No other file is changed, but for those
that `changed` holds of. -/
def GivesOut (job : Job) (changed : Route → Prop) (files : Files) (out : Bytes) (text : String)
    (files' : Files) : Prop :=
  if job.asHex then text = Text.Hex.encodeString out ++ "\n" ∧ KeepsBut changed files files'
  else shown (job.notice out) = .ok text ∧ job.HasWritten changed files out files'

/-- The job writes its output and cannot say so, because the path of the output holds half of a
pair. -/
structure IsUnsaid (job : Job) (out : Bytes) (cause : Text.Utf8.Halves) : Prop where
  notHex : job.asHex = false
  hasHalf : HasHalf job.outputPath
  refused : shown (job.notice out) = .error (.badValue (.halves cause))

/-! ## Phases -/

/-- How a result may be given out: as digits; not at all, if the output cannot be opened; or as the
content of the output, which then is said, or cannot be said. -/
inductive Delivers (job : Job) (out : Bytes) (w : World) : Except Fault String × World → Prop
  | digits (hhex : job.asHex = true) :
    Delivers job out w (.ok (Text.Hex.encodeString out ++ "\n"), w)
  | unopened (fault : Fault) (hhex : job.asHex = false) : Delivers job out w (.error fault, w)
  | said {files : Files} {line : String} (hhex : job.asHex = false)
      (hline : shown (job.notice out) = .ok line)
      (hwritten : w.files.overwrite job.outputPath out = .ok files) :
      Delivers job out w (.ok line, { w with files := files })
  | unsaid {files : Files} {cause : Text.Utf8.Halves} (h : job.IsUnsaid out cause)
      (hwritten : w.files.overwrite job.outputPath out = .ok files) :
      Delivers job out w (.error (.badValue (.halves cause)), { w with files := files })

/-- The steps applied in place to a buffer that is new in the world, with the bytes of the input. -/
def worked (steps : List Step) (content : Bytes) (w : World) : Except Fault Nat × World :=
  ({ w with store := (w.store.add content).2 } : World).run
    (Pipeline.run .builtin (.buffer (w.store.add content).1) (.list (steps.map Step.toValue)) true)

/-- The input can be read, and the steps make `out` of its bytes in place. -/
structure Works (job : Job) (steps : List Step) (w : World) (content out : Bytes) : Prop where
  isRead : w.files.read job.input = .ok content
  isMade : ∃ ref, (worked steps content w).1 = .ok ref ∧
    (worked steps content w).2.store.bytes ref = out

/-- How the work on the input may end: the input cannot be read, the steps fail, or their result is
given out in one of the ways there are. -/
inductive Transforms (job : Job) (steps : List Step) (w : World) :
    Except Fault String × World → Prop
  | unread (fault : Fault) : Transforms job steps w (.error fault, w)
  | unworked {content : Bytes} (fault : Fault) :
      Transforms job steps w (.error fault, (worked steps content w).2)
  | delivered {content out : Bytes} {x : Except Fault String × World}
      (h : job.Works steps w content out) (hx : job.Delivers out (worked steps content w).2 x) :
      Transforms job steps w x

section

variable {job : Job} {w w' : World} {steps : List Step} {content out : Bytes} {text : String}
  {fault : Fault} {changed : Route → Prop} {files : Files} {x : Except Fault String × World}

theorem delivers_deliver (job : Job) (out : Bytes) (w : World) :
    job.Delivers out w (job.deliver out w) := by
  unfold deliver
  cases hhex : job.asHex with
  | true =>
    rw [if_pos rfl, shown_hex]
    exact .digits hhex
  | false =>
    rw [if_neg Bool.false_ne_true]
    cases hopen : Files.opening (.text job.outputPath) (w.files.overwrite job.outputPath out) with
    | error fault => exact .unopened fault hhex
    | ok written =>
      have hwritten := Files.ok_of_opening hopen
      dsimp only
      cases hline : shown (job.notice out) with
      | ok line => exact .said hhex hline hwritten
      | error fault =>
        obtain ⟨hhalf, cause, rfl⟩ := exists_of_shown_error hline
        exact .unsaid ⟨hhex, hasHalf_notice_iff.1 hhalf, hline⟩ hwritten

theorem transforms_transform (job : Job) (steps : List Step) (w : World) :
    job.Transforms steps w (job.transform steps w) := by
  unfold transform
  cases hopen : Files.opening (.text job.input) (w.files.read job.input) with
  | error fault => exact .unread fault
  | ok content =>
    show job.Transforms steps w (job.finish (worked steps content w))
    rcases hwork : worked steps content w with ⟨fault | ref, w₁⟩
    · have hfailed : w₁ = (worked steps content w).2 := by rw [hwork]
      rw [hfailed]
      exact .unworked fault
    · have hread := Files.ok_of_opening hopen
      refine .delivered ⟨hread, ref, by rw [hwork], by rw [hwork]⟩ ?_
      rw [hwork]
      exact job.delivers_deliver _ w₁

/-! ## What the phases change -/

theorem Delivers.logging (h : job.Delivers out w x) : x.2.logging = w.logging := by
  cases h <;> rfl

@[simp] theorem logging_transform (job : Job) (steps : List Step) (w : World) :
    (job.transform steps w).2.logging = w.logging := by
  have h := job.transforms_transform steps w
  generalize job.transform steps w = x at h ⊢
  cases h with
  | unread => rfl
  | unworked => rfl
  | delivered _ hx => exact hx.logging

/-- What is written after other changes is written all the same. -/
theorem hasWritten_of_overwrite (hkept : KeepsBut changed files w.files) {written : Files}
    (h : w.files.overwrite job.outputPath out = .ok written) :
    job.HasWritten changed files out written := by
  refine ⟨Files.read_overwrite h, (hkept.mono fun _ => Or.inr).trans ?_⟩
  exact (Files.keepsBut_overwrite h).mono fun _ => Or.inl

theorem HasWritten.of_keepsBut {changed' : Route → Prop} {files₁ files₂ : Files}
    (hkept : KeepsBut changed files files₁) (himp : ∀ route, changed' route → changed route)
    (h : job.HasWritten changed' files₁ out files₂) : job.HasWritten changed files out files₂ :=
  ⟨h.1, (hkept.mono fun _ => Or.inr).trans (h.2.mono fun route => Or.imp_right (himp route))⟩

/-- What is given out later is given out of the files before, if only such files are changed until
then. -/
theorem givesOut_trans {changed' : Route → Prop} {files₁ files₂ : Files}
    (hkept : KeepsBut changed files files₁) (himp : ∀ route, changed' route → changed route)
    (h : job.GivesOut changed' files₁ out text files₂) :
    job.GivesOut changed files out text files₂ := by
  unfold GivesOut at h ⊢
  split at h <;> rename_i hhex
  · rw [if_pos hhex]
    exact ⟨h.1, hkept.trans (h.2.mono himp)⟩
  · rw [if_neg hhex]
    exact ⟨h.1, h.2.of_keepsBut hkept himp⟩

theorem keepsBut_worked (steps : List Step) (content : Bytes) (w : World) :
    KeepsBut w.logging.Writes w.files (worked steps content w).2.files :=
  World.keepsBut_run { w with store := (w.store.add content).2 } _

/-- **Steps that succeed give out what they make of the bytes of the input.** -/
theorem exists_works_of_transform (h : job.transform steps w = (.ok text, w')) :
    ∃ content out, job.Works steps w content out ∧
      job.GivesOut w.logging.Writes w.files out text w'.files := by
  have htransforms := job.transforms_transform steps w
  rw [h] at htransforms
  cases htransforms with
  | @delivered content out _ hworks hx =>
    refine ⟨content, out, hworks, ?_⟩
    have hkept := keepsBut_worked steps content w
    cases hx with
    | digits hhex =>
      rw [GivesOut, if_pos hhex]
      exact ⟨rfl, hkept⟩
    | said hhex hline hwritten =>
      rw [GivesOut, if_neg (by simp [hhex])]
      exact ⟨hline, hasWritten_of_overwrite hkept hwritten⟩

/-- **Steps that fail change the files of the handlers at most**, unless the output has been written
and that cannot be said. -/
theorem keepsBut_or_unsaid_of_transform (h : job.transform steps w = (.error fault, w')) :
    KeepsBut w.logging.Writes w.files w'.files ∨
      ∃ content out cause, job.Works steps w content out ∧ job.IsUnsaid out cause ∧
        fault = .badValue (.halves cause) ∧
          job.HasWritten w.logging.Writes w.files out w'.files := by
  have htransforms := job.transforms_transform steps w
  rw [h] at htransforms
  cases htransforms with
  | unread => exact Or.inl (.refl _ _)
  | unworked => exact Or.inl (keepsBut_worked steps _ w)
  | @delivered content out _ hworks hx =>
    have hkept := keepsBut_worked steps content w
    cases hx with
    | unopened => exact Or.inl hkept
    | @unsaid _ cause hunsaid hwritten =>
      exact Or.inr ⟨content, out, cause, hworks, hunsaid, rfl,
        hasWritten_of_overwrite hkept hwritten⟩

/-- What is made in place of the bytes of the input is made on a copy of them as well. -/
theorem copied_of_works (hstore : w.store = .empty) (h : job.Works steps w content out) {v : Value}
    (hv : (inputStore content).Holds v content) :
    ∃ copy s, (Pipeline.run .builtin v (.list (steps.map Step.toValue)) false).outcome
        (inputStore content) = (.ok copy, s) ∧ s.bytes copy = out := by
  obtain ⟨ref, hmade, rfl⟩ := h.isMade
  have hheld : (inputStore content).Holds (.buffer 0) content :=
    Store.holds_buffer (by simp [inputStore]) (Store.empty.bytes_add content)
  simp only [worked, World.bytes_run, World.fst_run, hstore] at hmade ⊢
  exact Pipeline.outcome_run_copy hheld hv (Prod.ext hmade rfl)

end

/-! ## Whole jobs -/

section

variable {job : Job} {w w' : World} {text : String} {fault : Fault} {config : Dict}

/-- The world in which the steps are applied, once logging is configured. -/
def logged (job : Job) (config : Dict) (w : World) : Except Fault Unit × World :=
  let (outcome, logging, files) := w.logging.configure w.files w.store.bytes owner
    (job.levelValue config) (job.pathValue config)
  (outcome, { w with logging := logging, files := files })

/-- The world without the handlers of the job. -/
def closed (w : World) : World := { w with logging := w.logging.close owner }

/-- How a job may end: with a configuration or steps that cannot be read, before anything is opened;
with a log that cannot be opened; or as the work on the input does. In the last two cases its
handlers are detached. -/
inductive Ends (job : Job) (w : World) : Except Fault String × World → Prop
  | unconfigured (fault : Fault) (hconfig : job.configuration w.files = .error fault) :
      Ends job w (.error fault, w)
  | unplanned (config : Dict) (fault : Fault) (hconfig : job.configuration w.files = .ok config)
      (hsteps : job.steps config = .error fault) : Ends job w (.error fault, w)
  | unlogged (config : Dict) (fault : Fault) (w₁ : World)
      (hconfig : job.configuration w.files = .ok config)
      (hlogged : job.logged config w = (.error fault, w₁)) : Ends job w (.error fault, closed w₁)
  | worked (config : Dict) (steps : List Step) (w₁ : World) (result : Except Fault String)
      (w₂ : World) (hconfig : job.configuration w.files = .ok config)
      (hsteps : job.steps config = .ok steps) (hlogged : job.logged config w = (.ok (), w₁))
      (hwork : job.transform steps w₁ = (result, w₂)) : Ends job w (result, closed w₂)

theorem ends_perform (job : Job) (w : World) : job.Ends w (job.perform w) := by
  unfold perform
  cases hconfig : job.configuration w.files with
  | error fault => exact .unconfigured fault hconfig
  | ok config =>
    dsimp only
    cases hsteps : job.steps config with
    | error fault => exact .unplanned config fault hconfig hsteps
    | ok steps =>
      dsimp only
      rcases hlogged : w.logging.configure w.files w.store.bytes owner (job.levelValue config)
        (job.pathValue config) with ⟨fault | _, logging, files⟩
      · exact .unlogged config fault _ hconfig (by rw [logged, hlogged])
      · exact .worked config steps _ _ _ hconfig hsteps (by rw [logged, hlogged]) rfl

/-- What configuring the logging of a job leaves. -/
theorem configured_logged (job : Job) (hfree : w.logging.IsFree owner) (config : Dict) :
    Log.Logging.Configured owner (job.pathValue config) w.logging w.files
      (job.logged config w).2.logging (job.logged config w).2.files :=
  Log.Logging.configured_configure hfree w.files w.store.bytes _ _

/-- The route is that of the log, or of the file of a handler that was there before. -/
def IsLogged (job : Job) (w : World) (route : Route) : Prop :=
  job.IsLog w.files route ∨ w.logging.Writes route

/-- Configuring the logging, and all records after it, change the files of handlers only. -/
theorem keepsBut_logged (hfree : w.logging.IsFree owner)
    (hconfig : job.configuration w.files = .ok config) :
    KeepsBut (job.IsLogged w) w.files (job.logged config w).2.files ∧
      ∀ route, (job.logged config w).2.logging.Writes route → job.IsLogged w route := by
  have hconfigured := job.configured_logged hfree config
  refine ⟨hconfigured.keepsBut.mono ?_, fun route hwrites => ?_⟩
  · rintro route ⟨name, hname, rfl⟩
    exact Or.inl ⟨config, name, hconfig, hname, rfl⟩
  · rcases hconfigured.writes hwrites with h | ⟨name, hname, rfl⟩
    · exact Or.inr h
    · exact Or.inl ⟨config, name, hconfig, hname, rfl⟩

/-- **However a job ends, it has detached its handlers**, and left those of others. -/
theorem handlers_perform (job : Job) (hfree : w.logging.IsFree owner) :
    (job.perform w).2.logging.handlers = w.logging.handlers := by
  have hend := job.ends_perform w
  generalize job.perform w = x at hend ⊢
  cases hend with
  | unconfigured => rfl
  | unplanned => rfl
  | unlogged config fault w₁ _ hlogged =>
    have hclosed := (job.configured_logged hfree config).handlers_close hfree
    rwa [hlogged] at hclosed
  | worked config steps w₁ result w₂ _ _ hlogged hwork =>
    have hclosed := (job.configured_logged hfree config).handlers_close hfree
    have hlogging := job.logging_transform steps w₁
    rw [hlogged] at hclosed
    rw [hwork] at hlogging
    rwa [closed, hlogging]

/-- What the steps make once the log is opened they make of the bytes of the input. The input is a
file from the start: it is not one because the log is opened. -/
theorem gives_of_works (hfree : w.logging.IsFree owner) (hstore : w.store = .empty)
    {steps : List Step} {content found out : Bytes} (hinput : w.files.read job.input = .ok content)
    (hconfig : job.configuration w.files = .ok config) (hsteps : job.steps config = .ok steps)
    (h : job.Works steps (job.logged config w).2 found out) :
    job.Gives w.files config steps content out := by
  have hcovers := (job.configured_logged hfree config).covers
  have hempty : (job.logged config w).2.store = .empty := hstore
  obtain rfl : content = found :=
    Except.ok.inj ((Files.read_of_covers hcovers hinput).symm.trans h.isRead)
  exact ⟨hconfig, hsteps, hinput, fun v hv => copied_of_works hempty h hv⟩

/-- **A job that succeeds gives out what its steps make of the bytes of the input on a copy.** -/
theorem gives_of_perform (hfree : w.logging.IsFree owner) (hstore : w.store = .empty)
    {content : Bytes} (hinput : w.files.read job.input = .ok content)
    (h : job.perform w = (.ok text, w')) :
    ∃ config steps out, job.Gives w.files config steps content out ∧
      job.GivesOut (job.IsLogged w) w.files out text w'.files := by
  have hend := job.ends_perform w
  rw [h] at hend
  cases hend with
  | worked config steps w₁ _ w₂ hconfig hsteps hlogged hwork =>
    obtain ⟨hkept, hwrites⟩ := keepsBut_logged hfree hconfig
    obtain rfl : (job.logged config w).2 = w₁ := congrArg Prod.snd hlogged
    obtain ⟨found, out, hworks, hout⟩ := exists_works_of_transform hwork
    exact ⟨config, steps, out, gives_of_works hfree hstore hinput hconfig hsteps hworks,
      givesOut_trans hkept hwrites hout⟩

/-- What a job that fails with a fault may leave of the files: all but those that `changed` holds of
as they were; or the output with what the steps make, if that cannot be said. -/
def Leaves (job : Job) (changed : Route → Prop) (files : Files) (content : Bytes) (fault : Fault)
    (files' : Files) : Prop :=
  KeepsBut changed files files' ∨
    ∃ config steps out cause, job.Gives files config steps content out ∧ job.IsUnsaid out cause ∧
      fault = .badValue (.halves cause) ∧ job.HasWritten changed files out files'

/-- **A job that fails changes no file but the log**, unless it cannot say that it has written its
output. -/
theorem leaves_of_perform (hfree : w.logging.IsFree owner) (hstore : w.store = .empty)
    {content : Bytes} (hinput : w.files.read job.input = .ok content)
    (h : job.perform w = (.error fault, w')) :
    job.Leaves (job.IsLogged w) w.files content fault w'.files := by
  have hend := job.ends_perform w
  rw [h] at hend
  cases hend with
  | unconfigured => exact Or.inl (.refl _ _)
  | unplanned => exact Or.inl (.refl _ _)
  | unlogged config _ w₁ hconfig hlogged =>
    have hkept := (keepsBut_logged hfree hconfig).1
    rw [hlogged] at hkept
    exact Or.inl hkept
  | worked config steps w₁ _ w₂ hconfig hsteps hlogged hwork =>
    obtain ⟨hkept, hwrites⟩ := keepsBut_logged hfree hconfig
    obtain rfl : (job.logged config w).2 = w₁ := congrArg Prod.snd hlogged
    rcases keepsBut_or_unsaid_of_transform hwork with
      hfailed | ⟨found, out, cause, hworks, hunsaid, rfl, hwritten⟩
    · exact Or.inl (hkept.trans (hfailed.mono hwrites))
    · exact Or.inr ⟨config, steps, out, cause,
        gives_of_works hfree hstore hinput hconfig hsteps hworks, hunsaid, rfl,
        hwritten.of_keepsBut hkept hwrites⟩

end

end Job

/-! ## Endings -/

namespace Ending

variable (files : Files) (form : Form)

/-- An ending that is no good one, with the files as they are. -/
structure IsFailure (e : Ending) (files : Files) : Prop where
  code : e.code ≠ 0
  files : e.files = files

theorem isFailure_silent (fault : Fault) : (silent files fault).IsFailure files :=
  ⟨Nat.one_ne_zero, rfl⟩

theorem isFailure_refused (message : String) : (refused files form message).IsFailure files :=
  ⟨Nat.succ_ne_zero 1, rfl⟩

theorem isFailure_aborted (fault : Fault) : (aborted files fault).IsFailure files :=
  ⟨Nat.one_ne_zero, rfl⟩

theorem isFailure_misused (misuse : Misuse) : (misused files form misuse).IsFailure files := by
  unfold misused
  split
  · exact isFailure_silent files _
  · exact isFailure_silent files _
  · split
    · exact ⟨Nat.succ_ne_zero 1, rfl⟩
    · exact isFailure_refused files form _

theorem isFailure_reported (report : Report) : (reported files report).IsFailure files := by
  unfold reported
  split
  · exact isFailure_silent files _
  · exact ⟨Nat.one_ne_zero, rfl⟩

theorem isFailure_faulted (fault : Fault) : (faulted files form fault).IsFailure files := by
  unfold faulted
  split
  · exact isFailure_reported files _
  · exact isFailure_refused files form _
  · exact isFailure_aborted files _
  · exact isFailure_silent files _
  · exact isFailure_aborted files _
  · exact isFailure_aborted files _
  · exact isFailure_aborted files _
  · exact isFailure_aborted files _
  · exact isFailure_silent files _

end Ending

/-! ## The command -/

section

variable {files : Files} {given : Given}

/-- The input of a command line without misuse is a file. -/
theorem exists_read_of_misuse? (h : runForm.misuse? files given = none) :
    ∃ content, files.read (Job.ofGiven given).input = .ok content := by
  have hoperands : operandMisuse? files [inputFile] given.operands = none := by
    unfold Form.misuse? at h
    split at h
    · cases h
    · exact h
  have hinput : (Job.ofGiven given).input = given.operands.headD "" := rfl
  rw [hinput]
  cases hgiven : given.operands with
  | nil =>
    rw [hgiven] at hoperands
    cases hoperands
  | cons path more =>
    simp only [hgiven, operandMisuse?, inputFile, Allowed.flaw?] at hoperands
    rw [List.headD_cons, Files.read]
    cases hbytes : Text.FileName.halves? path with
    | some cause => simp [hbytes] at hoperands
    | none =>
      cases hfind : files.find path with
      | error flaw => cases flaw <;> simp [hbytes, hfind] at hoperands
      | ok node =>
        cases node with
        | directory => simp [hbytes, hfind] at hoperands
        | file content => exact ⟨content, rfl⟩

/-- What the command does when it is not misused, in terms of the job. -/
theorem work_run (given : Given) (files : Files) (stamp : String) :
    (∃ text w, (Job.ofGiven given).perform (.initial files stamp) = (.ok text, w) ∧
      work .run given files stamp = .shown w.files text) ∨
    (∃ fault w, (Job.ofGiven given).perform (.initial files stamp) = (.error fault, w) ∧
      work .run given files stamp = .faulted w.files runForm fault) := by
  simp only [work]
  rcases hperform : (Job.ofGiven given).perform (.initial files stamp) with ⟨fault | text, w⟩
  · exact Or.inr ⟨fault, w, rfl, rfl⟩
  · exact Or.inl ⟨text, w, rfl, rfl⟩

theorem isFree_initial (files : Files) (stamp : String) :
    (World.initial files stamp).logging.IsFree Job.owner := by
  simp [Log.Logging.IsFree, Log.Logging.initial, World.initial]

/-- With no handlers at first, the only file that is logged to is the log. -/
theorem isLog_of_isLogged {job : Job} {stamp : String} {route : Route}
    (h : job.IsLogged (.initial files stamp) route) : job.IsLog files route := by
  rcases h with h | ⟨handler, hmem, -⟩
  · exact h
  · cases hmem

/-- The steps that the command line asks for have been worked out and their result is written, but
that cannot be said. The command ends as if they had failed. -/
def EndsUnsaid (files : Files) (args : List String) (e : Ending) : Prop :=
  ∃ given config steps content out cause, runForm.read args = .ok given ∧
    (Job.ofGiven given).Gives files config steps content out ∧
    (Job.ofGiven given).IsUnsaid out cause ∧
    (Job.ofGiven given).HasWritten ((Job.ofGiven given).IsLog files) files out e.files ∧
    e = .aborted e.files (.badValue (.halves cause))

/-- An input of three bytes, and a file where its output goes. -/
def sampleFiles : Files := ⟨"/", [(["in.bin"], .file [1, 2, 3]), (["in.bin.out"], .file [0])]⟩

/-- A command line with one step, which succeeds. -/
def sampleArgs : List String := ["in.bin", "-t", "not"]

/-- The same with a second step, which fails on the three bytes. -/
def failingArgs : List String := sampleArgs ++ ["-t", "copy", "-p", "copy.length=9"]

/-- What a command line is read as, by what it is read as on evaluation. -/
theorem of_read {α : Type} {args : List String} {given : Given} {f : Given → α} {a : α}
    (heval : ((runForm.read args).map f).toOption = some a) (h : runForm.read args = .ok given) :
    f given = a := by
  simpa [h, Except.map, Except.toOption] using heval

theorem has_help_sample (given : Given) (h : runForm.read sampleArgs = .ok given) :
    given.has .help = false :=
  of_read (f := fun given => given.has .help) (by decide +kernel) h

theorem has_help_failing (given : Given) (h : runForm.read failingArgs = .ok given) :
    given.has .help = false :=
  of_read (f := fun given => given.has .help) (by decide +kernel) h

/-- How the two command lines end. -/
def sampleEnding : Ending := perform sampleFiles "now" ("run" :: sampleArgs)

def failingEnding : Ending := perform sampleFiles "now" ("run" :: failingArgs)

/-- The output of the failing one has a path that can be shown. -/
theorem not_endsUnsaid_failing : ¬ EndsUnsaid sampleFiles failingArgs failingEnding := by
  rintro ⟨given, _, _, _, _, _, hread, -, hunsaid, -, -⟩
  have hnone : Text.Utf8.halves? (Job.ofGiven given).outputPath.toList = none :=
    of_read (f := fun given => Text.Utf8.halves? (Job.ofGiven given).outputPath.toList)
      (by decide +kernel) hread
  obtain ⟨c, hmem, hheld⟩ := hunsaid.hasHalf
  rw [Text.Utf8.halves?_eq_none_iff.1 hnone c hmem] at hheld
  cases hheld

/-- A name of one byte that is no text. -/
def unsaidName : String := String.ofList [Text.Units.ofNumber 0xdcff]

/-- An input of three bytes, and a directory of this name. -/
def unsaidFiles : Files := ⟨"/", [(["in.bin"], .file [1, 2, 3]), ([unsaidName], .directory)]⟩

/-- A command line with one step, which succeeds, and an output whose path leads through the
directory. -/
def unsaidArgs : List String := sampleArgs ++ ["-o", unsaidName ++ "/../out.bin"]

/-- What the command line gives. -/
def unsaidJob : Job where
  input := "in.bin"
  output := some (unsaidName ++ "/../out.bin")
  config := none
  transforms := ["not"]
  params := []
  asHex := false
  level := none
  logPath := none

def unsaidEnding : Ending := perform unsaidFiles "now" ("run" :: unsaidArgs)

end

end Command

end Octets
