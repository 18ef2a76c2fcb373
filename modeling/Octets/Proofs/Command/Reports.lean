import Octets.Proofs.Command.Writes
import Octets.Proofs.Pipeline.Told

/-!
# What the command `run` reports

A fault of a job is either told, on the error stream and by an exit code, or it escapes: nothing is
said, and the program breaks off. `Job.Untold` lists what escapes, once the configuration is loaded,
and where it comes from. All else is told, and the faults of transforms by the JSON text of their
reports.

* `Assignment.only_applyAll`, `Job.only_steps` — the faults of planning, by induction on the
  assignments.
* `Log.Logging.only_configure` — the faults of configuring the log.
* `Job.only_perform` — the faults of a job, from those of its phases.
* `Ending.tells_faulted`, `Ending.escapes_faulted` — how the command ends because of a fault.
* `run_reports` — the command, from the command line on.
-/

namespace Octets

open Fault (IsTold)

/-! ## Planning -/

namespace Pipeline

/-- Entries of another kind are told of, but what is no sequence is not. -/
theorem only_steps (contents : Nat → Bytes) (transforms : Value) :
    Only (fun fault => fault.IsTold ∨
        transforms.items? contents = none ∧ fault = .wrongKind (.notIterable transforms.kind))
      (steps contents transforms) := by
  refine Only.bind ?_ fun entries _ => (only_mapM fun v _ => ?_).mono fun _ => Or.inl
  · unfold Value.items
    split
    · exact only_ok _
    · rename_i hnone
      exact only_error (Or.inr ⟨hnone, rfl⟩)
  · unfold Step.ofValue
    split
    · exact only_ok _
    · exact only_ok _
    · exact only_error (.badValue _)

end Pipeline

namespace Assignment

/-- The faults of setting parameters for which the program has no words: a step keeps something that
is no dictionary for them, or a value stands inside too many others. -/
inductive Untold (steps : List Step) (texts : List String) : Fault → Prop
  | unkeyed {s : Step} (hs : s ∈ steps) (h : ¬ s.IsKeyed) (cause : Mismatch) :
    Untold steps texts (.wrongKind cause)
  | tooDeep {text : String} {a : Assignment} {nest : Json.Nest} (htext : text ∈ texts)
    (ha : ofText? text = some a) (h : Json.read a.raw.toList = .error (.tooDeep nest)) :
    Untold steps texts (.json (.tooDeep nest))

variable {a : Assignment} {v : Value} {s : Step} {steps steps' : List Step} {text : String}
  {texts : List String}

theorem only_setIn :
    Only (fun fault => fault.IsTold ∨ ¬ s.IsKeyed ∧ fault.IsMismatch) (a.setIn v s) := by
  unfold setIn
  by_cases hkeyed : s.IsKeyed
  · obtain ⟨pairs, hpairs⟩ := hkeyed
    rw [Dict.pairsOf_of_opened hpairs]
    exact only_ok _
  · exact Only.map ((Dict.only_pairsOf _ s.params).mono fun _ => Or.imp_right fun h => ⟨hkeyed, h⟩)

theorem Untold.not_isTold {fault : Fault} (h : Untold steps texts fault) : ¬ fault.IsTold := by
  cases h with
  | unkeyed _ _ cause => exact Fault.not_isTold_of_isMismatch ⟨cause, rfl⟩
  | tooDeep _ _ _ => exact Fault.not_isTold_tooDeep _

/-- What is set in a step leaves it with a dictionary. -/
theorem isKeyed_of_setIn {s' : Step} (h : a.setIn v s = .ok s') : s'.IsKeyed := by
  obtain ⟨pairs, -, rfl⟩ := ok_of_map h
  exact ⟨_, rfl⟩

theorem only_value :
    Only (fun fault => fault.IsTold ∨
      ∃ nest, Json.read a.raw.toList = .error (.tooDeep nest) ∧
        fault = .json (.tooDeep nest)) a.value := by
  unfold value
  split
  · exact only_ok _
  · rename_i nest hdeep
    exact only_error (Or.inr ⟨nest, hdeep, rfl⟩)
  · exact only_ok _

theorem only_apply (ha : ofText? text = some a) (htext : text ∈ texts) :
    Only (fun fault => fault.IsTold ∨ Untold steps texts fault) (a.apply steps) := by
  refine Only.bind (only_value.mono fun fault => Or.imp_right ?_) fun v _ => ?_
  · rintro ⟨nest, hdeep, rfl⟩
    exact .tooDeep htext ha hdeep
  · split
    · refine only_mapM fun s hs => ?_
      split
      · refine only_setIn.mono fun fault => Or.imp_right ?_
        rintro ⟨hkeyed, cause, rfl⟩
        exact .unkeyed hs hkeyed cause
      · exact only_ok _
    · exact only_error (Or.inl (.option _))

/-- Only steps from before can be left without a dictionary. -/
theorem mem_of_apply (h : a.apply steps = .ok steps') :
    ∀ s ∈ steps', ¬ s.IsKeyed → s ∈ steps := by
  obtain ⟨v, -, h⟩ := ok_of_bind h
  split at h
  · intro s hs hkeyed
    obtain ⟨s₀, hs₀, hset⟩ := exists_of_mapM h hs
    split at hset
    · exact absurd (isKeyed_of_setIn hset) hkeyed
    · cases hset
      exact hs₀
  · cases h

theorem Untold.of_mem {some more : List String} {fault : Fault} (h : Untold steps' some fault)
    (hsteps : ∀ s ∈ steps', ¬ s.IsKeyed → s ∈ steps) (htexts : ∀ text ∈ some, text ∈ more) :
    Untold steps more fault := by
  cases h with
  | unkeyed hs h cause => exact .unkeyed (hsteps _ hs h) h cause
  | tooDeep htext ha h => exact .tooDeep (htexts _ htext) ha h

/-- **The faults of setting parameters**, of all assignments one after the other. -/
theorem only_applyAll (steps : List Step) (texts : List String) :
    Only (fun fault => fault.IsTold ∨ Untold steps texts fault) (applyAll steps texts) := by
  induction texts generalizing steps with
  | nil => exact only_ok _
  | cons text rest ih =>
    have hfirst : Only (fun fault => fault.IsTold ∨ Untold steps (text :: rest) fault)
        ((ofText text).bind fun a => a.apply steps) := by
      unfold ofText
      cases ha : ofText? text with
      | none => exact only_error (Or.inl (.option _))
      | some a => exact only_apply ha List.mem_cons_self
    rw [applyAll, List.foldlM_cons]
    refine hfirst.bind fun steps' happly => (ih steps').mono fun fault => Or.imp_right fun h => ?_
    obtain ⟨a, -, happly⟩ := ok_of_bind happly
    exact h.of_mem (mem_of_apply happly) fun _ => List.mem_cons_of_mem _

end Assignment

/-! ## Files and the log -/

/-- The fault of opening a path is told. -/
theorem Files.only_opening {α : Type} (path : PathName) (outcome : Except FileFlaw α) :
    Only IsTold (opening path outcome) := by
  unfold opening
  split
  · exact only_error (.badValue _)
  · cases outcome with
    | ok _ => exact only_ok _
    | error flaw => exact only_error (.file flaw path)

namespace Log

variable {contents : Nat → Bytes}

/-- The name stands for the table of the styles, in any case. -/
def IsStyles (name : String) : Prop := upper name = "_STYLES"

theorem only_levelOf (name : String) :
    Only (fun fault => fault.IsTold ∨ IsStyles name ∧ fault.IsMismatch) (levelOf name) := by
  unfold levelOf
  split
  · exact only_error (Or.inl (.badValue _))
  · rename_i hstyles
    exact only_error (Or.inr ⟨hstyles, _, rfl⟩)
  · exact only_ok _

namespace Logging

/-- The faults of configuring the log for which the program has no words: the name of the level is
not that of a level but of something else, or what should be the path is none. -/
inductive Untold (contents : Nat → Bytes) (level path : Value) : Fault → Prop
  | level {name : String} (hname : level.printed contents = .ok name) (h : IsStyles name)
    (cause : Mismatch) : Untold contents level path (.wrongKind cause)
  | path {fault : Fault} (hholds : path.holds contents = true) (h : pathOf path = .error fault) :
    Untold contents level path fault

theorem only_pathOf (v : Value) : Only Fault.IsMismatch (pathOf v) := by
  unfold pathOf
  split
  · exact only_error ⟨_, rfl⟩
  · exact only_ok _
  · exact only_ok _
  · exact only_error ⟨_, rfl⟩

theorem Untold.not_isTold {level path : Value} {fault : Fault}
    (h : Untold contents level path fault) : ¬ fault.IsTold := by
  cases h with
  | level _ _ cause => exact Fault.not_isTold_of_isMismatch ⟨cause, rfl⟩
  | path _ h => exact Fault.not_isTold_of_isMismatch (only_pathOf path _ h)

/-- **The faults of configuring the log.** -/
theorem only_configure (logging : Logging) (files : Files) (contents : Nat → Bytes) (owner : Nat)
    (level path : Value) :
    Only (fun fault => fault.IsTold ∨ Untold contents level path fault)
      (logging.configure files contents owner level path).1 := by
  unfold configure
  cases hlevel : levelFrom contents level with
  | error fault =>
    refine only_error ?_
    have hfrom : Only (fun fault => fault.IsTold ∨ Untold contents level path fault)
        (levelFrom contents level) := by
      refine Only.bind (level.only_printed contents (Or.inr (Or.inl (.badValue _))))
        fun name hname => ?_
      refine (only_levelOf name).mono fun fault => Or.imp_right ?_
      rintro ⟨hstyles, cause, rfl⟩
      exact .level hname hstyles cause
    exact hfrom fault hlevel
  | ok n =>
    dsimp only
    split
    · rename_i hholds
      have hattach : Only (fun fault => fault.IsTold ∨ Untold contents level path fault)
          (attach { logging with rootLevel := n } files owner n path) := by
        unfold attach
        refine Only.bind (fun fault h => Or.inr (.path hholds h)) fun name _ => ?_
        split
        · exact only_ok _
        · have hopen : Only IsTold (openFile files name) := Files.only_opening _ _
          exact (hopen.mono fun _ => Or.inl).bind fun _ _ => only_ok _
      cases hx : attach { logging with rootLevel := n } files owner n path with
      | error fault => exact only_error (hattach fault hx)
      | ok x => exact only_ok _
    · exact only_ok _

end Logging

end Log

namespace Command

/-! ## Jobs -/

namespace Job

/-- What the configuration lists as its transforms. -/
def listed (config : Dict) : Value := (Dict.get? config "transforms").getD (.list [])

/-- The steps that the command line names. -/
def named (job : Job) : List Step := job.transforms.map fun name => ⟨.text name, .dict []⟩

/-- The faults of a job, once its configuration is loaded, for which the program has no words. -/
inductive Untold (job : Job) (config : Dict) : Fault → Prop
  /-- The transforms of the configuration are no sequence; null is none either. -/
  | listed (h : (listed config).items? (fun _ => []) = none) (cause : Mismatch) :
    Untold job config (.wrongKind cause)
  | assignment {steps : List Step} {fault : Fault}
    (hread : Pipeline.steps (fun _ => []) (listed config) = .ok steps)
    (h : Assignment.Untold (steps ++ job.named) job.params fault) : Untold job config fault
  | log {fault : Fault}
    (h : Log.Logging.Untold Store.empty.bytes (job.levelValue config)
      (job.pathValue config) fault) :
    Untold job config fault
  | step {steps : List Step} {s : Step} {fault : Fault} (hsteps : job.steps config = .ok steps)
    (hs : s ∈ steps) (h : s.Untold fault) : Untold job config fault
  /-- A shift or a resize exceeds a limit of the machine. -/
  | overflow {steps : List Step} (hsteps : job.steps config = .ok steps) (cause : Overflow) :
    Untold job config (.overflow cause)

variable {job : Job} {config : Dict}

/-- There are indeed no words for them. -/
theorem Untold.not_isTold {fault : Fault} (h : job.Untold config fault) : ¬ fault.IsTold := by
  cases h with
  | listed _ cause => exact Fault.not_isTold_of_isMismatch ⟨cause, rfl⟩
  | assignment _ h => exact h.not_isTold
  | log h => exact h.not_isTold
  | step _ _ h => exact h.not_isTold
  | overflow _ cause => exact Fault.not_isTold_overflow cause

/-- **The faults of planning.** -/
theorem only_steps (job : Job) (config : Dict) :
    Only (fun fault => fault.IsTold ∨ job.Untold config fault) (job.steps config) := by
  refine Only.bind ?_ fun steps hread => ?_
  · refine (Pipeline.only_steps _ _).mono fun fault => Or.imp_right ?_
    rintro ⟨hnone, rfl⟩
    exact .listed hnone _
  · dsimp only
    split
    · exact only_error (Or.inl (.option _))
    · exact (Assignment.only_applyAll _ _).mono fun fault => Or.imp_right (.assignment hread)

theorem only_shown (text : String) : Only IsTold (shown text) := by
  intro fault h
  obtain ⟨-, cause, rfl⟩ := exists_of_shown_error h
  exact .badValue _

theorem only_deliver (job : Job) (result : Bytes) (w : World) :
    Only IsTold (job.deliver result w).1 := by
  unfold deliver
  split
  · exact only_shown _
  · split
    · rename_i fault hopen
      exact only_error (Files.only_opening _ _ fault hopen)
    · exact only_shown _

theorem only_transform {steps : List Step} (hsteps : job.steps config = .ok steps) (w : World) :
    Only (fun fault => fault.IsTold ∨ job.Untold config fault) (job.transform steps w).1 := by
  unfold transform
  cases hopen : Files.opening (.text job.input) (w.files.read job.input) with
  | error fault => exact only_error (Or.inl (Files.only_opening _ _ fault hopen))
  | ok content =>
    show Only _ (job.finish (worked steps content w)).1
    have hrun : Only _ (worked steps content w).1 :=
      Pipeline.only_run steps (w.store.add content).1 true (w.store.add content).2
    rcases hwork : worked steps content w with ⟨fault | ref, w₁⟩ <;> rw [hwork] at hrun
    · refine only_error ((hrun fault rfl).imp_right ?_)
      rintro (⟨cause, rfl⟩ | ⟨s, hs, h⟩)
      · exact .overflow hsteps cause
      · exact .step hsteps hs h
    · exact (job.only_deliver _ w₁).mono fun _ => Or.inl

/-- **The faults of a job** whose configuration is loaded. -/
theorem only_perform {w : World} (hconfig : job.configuration w.files = .ok config)
    (hstore : w.store = .empty) :
    Only (fun fault => fault.IsTold ∨ job.Untold config fault) (job.perform w).1 := by
  have hend := job.ends_perform w
  generalize job.perform w = x at hend ⊢
  cases hend with
  | unconfigured fault hfault =>
    rw [hconfig] at hfault
    cases hfault
  | unplanned config' fault hconfig' hsteps =>
    obtain rfl : config = config' := Except.ok.inj (hconfig.symm.trans hconfig')
    exact only_error (job.only_steps config fault hsteps)
  | unlogged config' fault w₁ hconfig' hlogged =>
    obtain rfl : config = config' := Except.ok.inj (hconfig.symm.trans hconfig')
    have hconfigure := Log.Logging.only_configure w.logging w.files w.store.bytes owner
      (job.levelValue config) (job.pathValue config) fault (congrArg Prod.fst hlogged)
    rw [hstore] at hconfigure
    exact only_error (hconfigure.imp_right .log)
  | worked config' steps w₁ result w₂ hconfig' hsteps hlogged hwork =>
    obtain rfl : config = config' := Except.ok.inj (hconfig.symm.trans hconfig')
    have htransform := only_transform hsteps w₁
    rwa [hwork] at htransform

end Job

/-! ## Endings -/

namespace Ending

/-- The ending tells the fault: by the JSON text of its report and in words, by words about the use
of the command, or by words about the work. -/
inductive Tells (e : Ending) (fault : Fault) : Prop
  | reported {report : Report} {json : String} (hreport : fault.report? = some report)
    (hjson : Json.write true report.toDict = .ok json) (code : e.code = 1)
    (err : e.err = json ++ "\nError: " ++ legible report.message.plain ++ "\n") : Tells e fault
  | refused (hreport : fault.report? = none) (code : e.code = 2)
    (err : ∃ usage, e.err = usage ++ "\n\nError: " ++ legible fault.message ++ "\n") : Tells e fault
  | aborted (hreport : fault.report? = none) (code : e.code = 1)
    (err : e.err = "Error during transform: " ++ legible fault.message ++ "\nAborted!\n") :
      Tells e fault

/-- The program breaks off with a fault, and says nothing. -/
structure Escapes (e : Ending) : Prop where
  code : e.code = 1
  out : e.out = ""
  err : e.err = ""
  unreported : e.unreported.isSome = true

variable (files : Files) (form : Form) {fault : Fault}

theorem escapes_silent (fault : Fault) : (silent files fault).Escapes := ⟨rfl, rfl, rfl, rfl⟩

theorem tells_faulted (h : fault.IsTold) :
    (faulted files form fault).Tells fault ∧ (faulted files form fault).unreported = none := by
  cases h with
  | report hreport hjson =>
    rename_i report json
    have hfaulted : faulted files form fault = reported files report := by
      unfold faulted
      rw [hreport]
    rw [hfaulted, reported, hjson]
    exact ⟨.reported hreport hjson rfl rfl, rfl⟩
  | option cause => exact ⟨.refused rfl rfl ⟨_, rfl⟩, rfl⟩
  | badValue cause => exact ⟨.aborted rfl rfl rfl, rfl⟩
  | json hdeep =>
    rename_i cause
    cases cause with
    | tooDeep nest => exact absurd rfl (hdeep nest)
    | _ => exact ⟨.aborted rfl rfl rfl, rfl⟩
  | encoding cause => exact ⟨.aborted rfl rfl rfl, rfl⟩
  | markup => exact ⟨.aborted rfl rfl rfl, rfl⟩
  | file flaw path => exact ⟨.aborted rfl rfl rfl, rfl⟩

theorem escapes_faulted (h : ¬ fault.IsTold) : (faulted files form fault).Escapes := by
  unfold faulted
  split
  · rename_i report hreport
    unfold reported
    split
    · exact escapes_silent files _
    · rename_i json hjson
      exact absurd (.report hreport hjson) h
  · exact absurd (.option _) h
  · exact absurd (.badValue _) h
  · exact escapes_silent files _
  · rename_i cause hdeep hreport
    exact absurd (.json fun nest heq => hdeep nest (by rw [heq])) h
  · exact absurd (.encoding _) h
  · exact absurd .markup h
  · exact absurd (.file _ _) h
  · exact escapes_silent files _

end Ending

/-! ## The command -/

section

variable {files : Files} {args : List String} {given : Given} {config : Dict}

/-- The command line gives a job: it is not misused, it does not call for help, and the
configuration it names is loaded. -/
structure Starts (files : Files) (args : List String) (given : Given) (config : Dict) : Prop where
  isRead : runForm.read args = .ok given
  noHelp : given.has .help = false
  noMisuse : runForm.misuse? files given = none
  isConfigured : (Job.ofGiven given).configuration files = .ok config

/-- A command line that gives a job does it. -/
theorem Starts.perform_eq (h : Starts files args given config) (stamp : String) :
    perform files stamp ("run" :: args) = work .run given files stamp := by
  have hgiven : ∀ other, runForm.read args = .ok other → other = given := by
    intro other hother
    exact Except.ok.inj (hother.symm.trans h.isRead)
  have hruns : Runs files stamp args (perform files stamp ("run" :: args)) :=
    runs_perform fun other hother => by
      rw [hgiven other hother]
      exact h.noHelp
  generalize perform files stamp ("run" :: args) = e at hruns ⊢
  cases hruns with
  | misused misuse hmisused =>
    rcases hmisused with hread | ⟨other, hother, hmisuse⟩
    · rw [h.isRead] at hread
      cases hread
    · rw [hgiven other hother, h.noMisuse] at hmisuse
      cases hmisuse
  | worked other hother _ => rw [hgiven other hother]

/-- Without a configuration file it is enough to look at the command line. -/
theorem exists_starts
    (h : ((runForm.read args).map fun g =>
      (g.has .help, (runForm.misuse? files g).isNone, (Job.ofGiven g).config)).toOption =
        some (false, true, none)) : ∃ given, Starts files args given [] := by
  cases hread : runForm.read args with
  | error misuse =>
    rw [hread] at h
    cases h
  | ok given =>
    rw [hread] at h
    simp only [Except.map, Except.toOption, Option.some.injEq, Prod.mk.injEq] at h
    obtain ⟨hhelp, hmisuse, hconfig⟩ := h
    refine ⟨given, hread, hhelp, Option.isNone_iff_eq_none.1 hmisuse, ?_⟩
    rw [Job.configuration, hconfig]
    rfl

/-- A command line with the name of no transform. -/
def unknownArgs : List String := ["in.bin", "-t", "nope"]

/-- How it ends. -/
def unknownEnding : Ending := perform sampleFiles "now" ("run" :: unknownArgs)

/-- A command line with a list as the seed of a shuffle. -/
def listedSeedArgs : List String := ["in.bin", "-t", "shuffle", "-p", "shuffle.seed=[1]", "--hex"]

/-- How it ends. -/
def listedSeedEnding : Ending := perform sampleFiles "now" ("run" :: listedSeedArgs)

end

end Command

end Octets
