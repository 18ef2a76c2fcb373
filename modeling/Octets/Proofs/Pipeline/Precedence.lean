import Mathlib
import Octets.Proofs.Session.Growth

/-!
# Which fault a pipeline ends with

A pipeline reads all entries, then builds all steps, then applies them. So a fault of an early stage
comes before every fault of a later one, wherever in the list its entry stands, and within a stage
the first entry counts.

* `mapM_ofValue_of_not_isEntry` — one entry that is neither a name nor a dictionary is enough to
  refuse the list.
* `sameFaults_build` — whether a step can be built depends on the buffers only, not on the
  generators that the steps before it have made. Hence `outcome_build_of_refused`: the first step
  that cannot be built in the store at the start is the one whose fault is given.
* `applyAll_eq_error_iff` — a fault of applying is that of the first step that fails on what the
  steps before it give.
* `pipeline_precedence` — the order of the stages as a caller of a session sees it, and that nothing
  but new generators is left by a pipeline that is refused before its first step is applied.
-/

namespace Octets

/-! ## Entries -/

namespace Step

/-- The value is a name or a dictionary. -/
def IsEntry (v : Value) : Prop := v.asText?.isSome = true ∨ ∃ entries, v.opened = .dict entries

variable {contents : Nat → Bytes} {v : Value} {entries : List Value}

theorem exists_ofValue (contents : Nat → Bytes) (h : IsEntry v) :
    ∃ step, ofValue contents v = .ok step := by
  unfold ofValue
  split
  · exact ⟨_, rfl⟩
  · exact ⟨_, rfl⟩
  · rename_i hnotext hnodict
    rcases h with htext | ⟨entries, hdict⟩
    · simp [hnotext] at htext
    · exact absurd hdict (hnodict entries)

theorem ofValue_of_not_isEntry (h : ¬ IsEntry v) :
    ofValue contents v = .error (.badValue .entryKind) := by
  unfold ofValue
  split
  · rename_i htext
    exact absurd (Or.inl (by simp [htext])) h
  · rename_i hdict
    exact absurd (Or.inr ⟨_, hdict⟩) h
  · rfl

/-- **One value that is no entry is enough to refuse the list.** -/
theorem mapM_ofValue_of_not_isEntry (h : ∃ v ∈ entries, ¬ IsEntry v) :
    entries.mapM (ofValue contents) = .error (.badValue .entryKind) := by
  induction entries with
  | nil => simp at h
  | cons v rest ih =>
    rw [List.mapM_cons]
    by_cases hv : IsEntry v
    · obtain ⟨step, hstep⟩ := exists_ofValue contents hv
      have hrest : ∃ v ∈ rest, ¬ IsEntry v := by simpa [hv] using h
      rw [hstep, ih hrest]
      rfl
    · rw [ofValue_of_not_isEntry hv]
      rfl

/-- A list of entries is read entry by entry. -/
theorem exists_mapM_ofValue (contents : Nat → Bytes) (h : ∀ v ∈ entries, IsEntry v) :
    ∃ read, entries.mapM (ofValue contents) = .ok read ∧
      List.Forall₂ (fun v step => ofValue contents v = .ok step) entries read := by
  induction entries with
  | nil => exact ⟨[], rfl, .nil⟩
  | cons v rest ih =>
    obtain ⟨hv, hrest⟩ := List.forall_mem_cons.1 h
    obtain ⟨step, hstep⟩ := exists_ofValue contents hv
    obtain ⟨read, hread, hall⟩ := ih hrest
    refine ⟨step :: read, ?_, .cons hstep hall⟩
    rw [List.mapM_cons, hstep, hread]
    rfl

end Step

/-! ## Faults of building -/

namespace Action

variable {α β : Type}

/-- Whether the action fails, and with which fault, depends on the bytes of the buffers only. -/
def SameFaults (action : Action α) : Prop :=
  ∀ s s' : Store, s'.bytes = s.bytes → ∀ fault,
    (action.outcome s').1 = .error fault ↔ (action.outcome s).1 = .error fault

theorem sameFaults_reading (f : (Nat → Bytes) → Except Fault α) : SameFaults (reading f) := by
  intro s s' hbytes fault
  rw [outcome_reading, outcome_reading, hbytes]

theorem sameFaults_of_ok {action : Action α} (h : ∀ s, ∃ a, (action.outcome s).1 = .ok a) :
    SameFaults action := by
  intro s s' _ fault
  obtain ⟨a, ha⟩ := h s
  obtain ⟨a', ha'⟩ := h s'
  simp [ha, ha']

theorem SameFaults.reading_bind {f : (Nat → Bytes) → Except Fault α} {g : α → Action β}
    (h : ∀ a, (g a).SameFaults) : SameFaults (reading f >>= g) := by
  intro s s' hbytes fault
  simp only [outcome_bind, outcome_reading, hbytes]
  cases f s.bytes with
  | error refusal => rfl
  | ok a => exact h a s s' hbytes fault

end Action

namespace Family

theorem sameFaults_shuffleOf (params : Dict) : (shuffleOf params).SameFaults := by
  simp only [shuffleOf]
  split
  · exact Action.sameFaults_reading _
  split
  · exact fun _ _ _ _ => Iff.rfl
  refine .reading_bind fun n => Action.sameFaults_of_ok fun s => ?_
  exact ⟨.shuffle .twister s.generators.length, rfl⟩

theorem sameFaults_ofParams (family : Family) (params : Dict) :
    (family.ofParams params).SameFaults := by
  refine .reading_bind fun _ => ?_
  cases family with
  | plugin p => exact Action.sameFaults_reading _
  | builtin k =>
    cases k with
    | negate => exact Action.sameFaults_of_ok fun _ => ⟨_, rfl⟩
    | reverse => exact Action.sameFaults_of_ok fun _ => ⟨_, rfl⟩
    | sort =>
      dsimp only
      split
      · exact Action.sameFaults_reading _
      · exact Action.sameFaults_of_ok fun _ => ⟨_, rfl⟩
    | shuffle => exact sameFaults_shuffleOf params
    | _ => exact Action.sameFaults_reading _

end Family

/-- The step is refused when it is built in the store, with this fault. -/
def Registry.Refuses (r : Registry) (s : Store) (step : Step) (fault : Fault) : Prop :=
  ((r.build step.name step.params).outcome s).1 = .error fault

namespace Registry

theorem sameFaults_build (r : Registry) (name params : Value) : (r.build name params).SameFaults :=
  .reading_bind fun _ => .reading_bind fun _ => Family.sameFaults_ofParams _ _

variable {r : Registry} {s s' : Store} {step : Step} {fault : Fault}

theorem refuses_iff_of_extends (h : s.Extends s') :
    r.Refuses s' step fault ↔ r.Refuses s step fault :=
  r.sameFaults_build step.name step.params s s' h.bytes fault

/-- A step that is not refused is built. -/
theorem exists_outcome_build (h : ∀ fault, ¬ r.Refuses s step fault) :
    ∃ t s', (r.build step.name step.params).outcome s = (.ok t, s') ∧ s.Extends s' := by
  have hext := r.extends_build step.name step.params s
  rcases hrun : (r.build step.name step.params).outcome s with ⟨refusal | t, s'⟩ <;>
    rw [hrun] at hext
  · exact absurd (congrArg Prod.fst hrun) (h refusal)
  · exact ⟨t, s', rfl, hext⟩

end Registry

namespace Pipeline

variable {r : Registry} {s s₁ : Store} {steps : List Step}

/-- **The first step that is refused at the start decides the fault of building**, although the
steps before it are built first. -/
theorem outcome_build_of_refused {earlier : List Step} {step : Step} {fault : Fault}
    (later : List Step) (hext : s.Extends s₁)
    (hearlier : ∀ e ∈ earlier, ∀ fault, ¬ r.Refuses s e fault) (hstep : r.Refuses s step fault) :
    ((build r (earlier ++ step :: later)).outcome s₁).1 = .error fault := by
  -- the store only grows while the earlier steps are built
  induction earlier generalizing s₁ with
  | nil =>
    have hrefused := (Registry.refuses_iff_of_extends hext).2 hstep
    rw [Registry.Refuses] at hrefused
    rw [List.nil_append, build, Action.outcome_bind]
    rcases hrun : (r.build step.name step.params).outcome s₁ with ⟨refusal | t, s₂⟩ <;>
      rw [hrun] at hrefused
    · rwa [Except.error.injEq, eq_comm] at hrefused ⊢
    · cases hrefused
  | cons e earlier ih =>
    obtain ⟨he, hearlier⟩ := List.forall_mem_cons.1 hearlier
    obtain ⟨t, s₂, hrun, hext'⟩ := Registry.exists_outcome_build fun fault hrefused =>
      he fault ((Registry.refuses_iff_of_extends hext).1 hrefused)
    have hlater := ih (hext.trans hext') hearlier
    rw [List.cons_append, build, Action.outcome_bind, hrun]
    simp only [Action.outcome_bind]
    rcases hrest : (build r (earlier ++ step :: later)).outcome s₂ with ⟨refusal | rest, s₃⟩ <;>
      rw [hrest] at hlater
    · exact hlater
    · cases hlater

/-- Steps of which none is refused at the start are built. -/
theorem exists_outcome_build (hext : s.Extends s₁)
    (h : ∀ e ∈ steps, ∀ fault, ¬ r.Refuses s e fault) :
    ∃ built s₂, (build r steps).outcome s₁ = (.ok built, s₂) := by
  induction steps generalizing s₁ with
  | nil => exact ⟨[], s₁, rfl⟩
  | cons e rest ih =>
    obtain ⟨he, hrest⟩ := List.forall_mem_cons.1 h
    obtain ⟨t, s₂, hrun, hext'⟩ := Registry.exists_outcome_build fun fault hrefused =>
      he fault ((Registry.refuses_iff_of_extends hext).1 hrefused)
    obtain ⟨built, s₃, hbuilt⟩ := ih (hext.trans hext') hrest
    refine ⟨(e.name, t) :: built, s₃, ?_⟩
    rw [build, Action.outcome_bind, hrun]
    simp only [Action.outcome_bind, hbuilt, Action.outcome_pure]

/-! ## Faults of applying -/

/-- The step with this index is the first that fails: each before it is applied to what the one
before it gives, the first to `data`. -/
inductive FailsAt : Value → Bool → Store → List (Value × Transform) → Nat → Fault → Prop
  | here {data : Value} {inPlace : Bool} {s s' : Store} {name : Value} {t : Transform}
      {rest : List (Value × Transform)} {fault : Fault}
      (h : (applyStep name t data inPlace).outcome s = (.error fault, s')) :
      FailsAt data inPlace s ((name, t) :: rest) 0 fault
  | later {data : Value} {inPlace : Bool} {s s' : Store} {name : Value} {t : Transform}
      {rest : List (Value × Transform)} {i ref : Nat} {fault : Fault}
      (h : (applyStep name t data inPlace).outcome s = (.ok ref, s'))
      (hrest : FailsAt (.buffer ref) true s' rest i fault) :
      FailsAt data inPlace s ((name, t) :: rest) (i + 1) fault

variable {built : List (Value × Transform)} {fault : Fault}

/-- A fault of the first step, or of those behind it. -/
theorem applyAll_cons_eq_error_iff {data : Value} {inPlace : Bool} {name : Value} {t : Transform}
    (hrest : ∀ ref s', ((applyFrom ref built).outcome s').1 = .error fault ↔
      ∃ i, FailsAt (.buffer ref) true s' built i fault) :
    ((applyAll data inPlace ((name, t) :: built)).outcome s).1 = .error fault ↔
      ∃ i, FailsAt data inPlace s ((name, t) :: built) i fault := by
  rw [applyAll, Action.outcome_bind]
  rcases hrun : (applyStep name t data inPlace).outcome s with ⟨refusal | ref, s'⟩
  · constructor
    · rintro ⟨⟩
      exact ⟨0, .here hrun⟩
    · rintro ⟨_, h | ⟨h, -⟩⟩ <;> rw [hrun] at h <;> cases h
      rfl
  · rw [hrest ref s']
    constructor
    · rintro ⟨i, h⟩
      exact ⟨i + 1, .later hrun h⟩
    · rintro ⟨_, h | ⟨h, hlater⟩⟩ <;> rw [hrun] at h <;> cases h
      exact ⟨_, hlater⟩

theorem applyFrom_eq_error_iff (ref : Nat) (s : Store) :
    ((applyFrom ref built).outcome s).1 = .error fault ↔
      ∃ i, FailsAt (.buffer ref) true s built i fault := by
  induction built generalizing ref s with
  | nil =>
    refine iff_of_false (fun h => by cases h) ?_
    rintro ⟨_, ⟨⟩⟩
  | cons e rest ih => exact applyAll_cons_eq_error_iff ih

/-- **A fault of applying is that of the first step that fails.** Without steps, the data may still
be such that they cannot be copied. -/
theorem applyAll_eq_error_iff (data : Value) (inPlace : Bool) (s : Store) :
    ((applyAll data inPlace built).outcome s).1 = .error fault ↔
      (∃ i, FailsAt data inPlace s built i fault) ∨
        built = [] ∧ (inPlace = true → ∀ ref, data ≠ .buffer ref) ∧
          ((Action.toBuffer data).outcome s).1 = .error fault := by
  cases built with
  | nil =>
    have hnone : ¬ ∃ i, FailsAt data inPlace s [] i fault := by
      rintro ⟨_, ⟨⟩⟩
    simp only [hnone, false_or, true_and]
    by_cases h : inPlace = true ∧ ∃ ref, data = .buffer ref
    · obtain ⟨rfl, ref, rfl⟩ := h
      simp [applyAll]
    · have happly : applyAll data inPlace [] = Action.toBuffer data := by
        cases inPlace with
        | false => cases data <;> rfl
        | true =>
          cases data with
          | buffer ref => exact absurd ⟨rfl, ref, rfl⟩ h
          | _ => rfl
      rw [happly]
      refine ⟨fun hfault => ⟨?_, hfault⟩, And.right⟩
      rintro rfl ref rfl
      exact h ⟨rfl, ref, rfl⟩
  | cons e rest =>
    simp only [reduceCtorEq, false_and, or_false]
    exact applyAll_cons_eq_error_iff applyFrom_eq_error_iff

end Pipeline

/-! ## The stages of a call -/

/-- The entry of a pipeline is a step that cannot be built in the store. -/
def Registry.Rejects (r : Registry) (s : Store) (entry : Value) (fault : Fault) : Prop :=
  ∃ step, Step.ofValue s.bytes entry = .ok step ∧ r.Refuses s step fault

/-- The call of a pipeline ends with the fault before a step is applied. There may be new
generators; the buffers, the other generators and the journal of the steps are as they were, and so
is all else. -/
def World.Stops (w : World) (engine : String) (data transforms : Value) (inPlace : Bool)
    (x : Session.Outcome × World) (fault : Fault) : Prop :=
  ∃ s, w.store.Extends s ∧
    (Pipeline.run (w.engine engine).1.registry data transforms inPlace).outcome w.store
      = (.error fault, s) ∧
    x = (.error (.fault fault), { (w.engine engine).2 with store := s })

namespace Pipeline

open Session

variable {w : World} {r : Registry} {s : Store} {buffer : String} {data transforms : Value}
  {inPlace : Bool}

theorem steps_of_items {contents : Nat → Bytes} {entries : List Value}
    (h : transforms.items contents = .ok entries) :
    steps contents transforms = entries.mapM (Step.ofValue contents) := by
  rw [steps, h]
  rfl

theorem not_refuses_of_not_rejects {entries : List Value} {read : List Step}
    (hread : List.Forall₂ (fun e step => Step.ofValue s.bytes e = .ok step) entries read)
    (h : ∀ e ∈ entries, ∀ fault, ¬ r.Rejects s e fault) :
    ∀ step ∈ read, ∀ fault, ¬ r.Refuses s step fault := by
  induction hread with
  | nil => simp
  | cons hstep _ ih =>
    obtain ⟨he, hrest⟩ := List.forall_mem_cons.1 h
    refine List.forall_mem_cons.2 ⟨fun fault hrefused => ?_, ih hrest⟩
    exact he fault ⟨_, hstep, hrefused⟩

/-! ### The four stages -/

section

variable {engine : String} {naming : Naming} {fault : Fault} {entries : List Value}

/-- A pipeline that fails with nothing changed but for new generators, as a call of a session. -/
theorem stops_of_outcome (hjournal : w.store.journal = [])
    (hdata : find? w.buffers buffer = some data) (hext : w.store.Extends s)
    (hrun : (run (w.engine engine).1.registry data transforms inPlace).outcome w.store
      = (.error fault, s)) :
    w.Stops engine data transforms inPlace
      (w.perform (.pipeline engine buffer transforms inPlace naming)) fault := by
  have hengine : (run (w.engine engine).1.registry data transforms inPlace).outcome
      (w.engine engine).2.store = (.error fault, s) := by
    rwa [World.store_engine]
  have hbuffer : find? (w.engine engine).2.buffers buffer = some data := by
    rwa [World.buffers_engine]
  refine ⟨s, hext, hrun, ?_⟩
  exact World.change_of_error hbuffer (World.run_of_journal hengine (hext.journal.trans hjournal))

/-- Null is refused before anything is read. -/
theorem stops_of_isNull (hjournal : w.store.journal = [])
    (hdata : find? w.buffers buffer = some data) (hnull : data.isNull = true) :
    w.Stops engine data transforms inPlace
      (w.perform (.pipeline engine buffer transforms inPlace naming))
      (.nullParameter "data" none) := by
  refine stops_of_outcome hjournal hdata (.refl _) ?_
  simp only [run, hnull, if_true, Action.outcome_fail]

/-- An entry that is none is refused before anything is built. -/
theorem stops_of_not_isEntry (hjournal : w.store.journal = [])
    (hdata : find? w.buffers buffer = some data) (hnull : data.isNull = false)
    (hitems : transforms.items w.store.bytes = .ok entries)
    (hkind : ∃ e ∈ entries, ¬ Step.IsEntry e) : w.Stops engine data transforms inPlace
      (w.perform (.pipeline engine buffer transforms inPlace naming)) (.badValue .entryKind) := by
  have hsteps : steps w.store.bytes transforms = .error (.badValue .entryKind) := by
    rw [steps_of_items hitems, Step.mapM_ofValue_of_not_isEntry hkind]
  refine stops_of_outcome hjournal hdata (.refl _) ?_
  simp only [run, hnull, Bool.false_eq_true, if_false, Action.outcome_bind, Action.outcome_reading,
    hsteps]

/-- The first entry that cannot be built is refused before anything is applied. -/
theorem stops_of_rejects (hjournal : w.store.journal = [])
    (hdata : find? w.buffers buffer = some data) (hnull : data.isNull = false)
    {earlier later : List Value} {entry : Value}
    (hitems : transforms.items w.store.bytes = .ok (earlier ++ entry :: later))
    (hentries : ∀ e ∈ earlier ++ entry :: later, Step.IsEntry e)
    (hearlier : ∀ e ∈ earlier, ∀ fault, ¬ (w.engine engine).1.registry.Rejects w.store e fault)
    (hentry : (w.engine engine).1.registry.Rejects w.store entry fault) :
    w.Stops engine data transforms inPlace
      (w.perform (.pipeline engine buffer transforms inPlace naming)) fault := by
  obtain ⟨step, hstep, hrefused⟩ := hentry
  obtain ⟨hbefore, hbehind⟩ := List.forall_mem_append.1 hentries
  obtain ⟨before, hread, hall⟩ := Step.exists_mapM_ofValue w.store.bytes hbefore
  obtain ⟨behind, hreadbehind, -⟩ := Step.exists_mapM_ofValue w.store.bytes
    (List.forall_mem_cons.1 hbehind).2
  have hsteps : steps w.store.bytes transforms = .ok (before ++ step :: behind) := by
    rw [steps_of_items hitems, List.mapM_append, List.mapM_cons, hread, hstep, hreadbehind]
    rfl
  have hbuild := outcome_build_of_refused behind (.refl w.store)
    (not_refuses_of_not_rejects hall hearlier) hrefused
  rcases hrun : (build (w.engine engine).1.registry (before ++ step :: behind)).outcome w.store with
    ⟨refusal | built, s⟩ <;> rw [hrun] at hbuild <;> cases hbuild
  refine stops_of_outcome hjournal hdata (extends_of_build hrun) ?_
  rw [outcome_run_of_steps hnull hsteps, Action.outcome_bind, hrun]

/-- Once all entries are built, a call fails as applying them does. -/
theorem perform_eq_error_iff {read : List Step} {built : List (Value × Transform)}
    (hdata : find? w.buffers buffer = some data) (hnull : data.isNull = false)
    (hsteps : steps w.store.bytes transforms = .ok read)
    (hbuilt : (build (w.engine engine).1.registry read).outcome w.store = (.ok built, s)) :
    (w.perform (.pipeline engine buffer transforms inPlace naming)).1 = .error (.fault fault) ↔
      ((applyAll data inPlace built).outcome s).1 = .error fault := by
  have hbuffer : find? (w.engine engine).2.buffers buffer = some data := by
    rwa [World.buffers_engine]
  have hrun : (run (w.engine engine).1.registry data transforms inPlace).outcome
      (w.engine engine).2.store = (applyAll data inPlace built).outcome s := by
    rw [World.store_engine, outcome_run hnull hsteps hbuilt]
  rw [← hrun]
  exact World.change_eq_error_iff hbuffer

end

/-- **The order in which a pipeline fails.** Data that are null come before anything in the entries,
an entry of the wrong kind before one that cannot be built, and the first entry that cannot be built
before any step that fails on the data. Up to there nothing is written, drawn or logged. Otherwise
the fault is that of the first step that fails. The journal is empty between the calls of a session
(`World.journal_after`). -/
theorem pipeline_precedence (hjournal : w.store.journal = [])
    (hdata : find? w.buffers buffer = some data) (engine : String) (transforms : Value)
    (inPlace : Bool) (naming : Naming) :
    let x := w.perform (.pipeline engine buffer transforms inPlace naming)
    let r := (w.engine engine).1.registry
    (data.isNull = true → w.Stops engine data transforms inPlace x (.nullParameter "data" none)) ∧
      ∀ entries, data.isNull = false → transforms.items w.store.bytes = .ok entries →
        ((∃ e ∈ entries, ¬ Step.IsEntry e) →
          w.Stops engine data transforms inPlace x (.badValue .entryKind)) ∧
        ((∀ e ∈ entries, Step.IsEntry e) →
          (∀ earlier entry later fault, entries = earlier ++ entry :: later →
            (∀ e ∈ earlier, ∀ fault, ¬ r.Rejects w.store e fault) → r.Rejects w.store entry fault →
            w.Stops engine data transforms inPlace x fault) ∧
          ((∀ e ∈ entries, ∀ fault, ¬ r.Rejects w.store e fault) →
            ∃ read built s,
              List.Forall₂ (fun e step => Step.ofValue w.store.bytes e = .ok step) entries read ∧
              (build r read).outcome w.store = (.ok built, s) ∧
              ∀ fault, x.1 = .error (.fault fault) ↔
                (∃ i, FailsAt data inPlace s built i fault) ∨
                  entries = [] ∧ (inPlace = true → ∀ ref, data ≠ .buffer ref) ∧
                    ((Action.toBuffer data).outcome s).1 = .error fault)) := by
  intro x r
  refine ⟨stops_of_isNull hjournal hdata, fun entries hnull hitems =>
    ⟨stops_of_not_isEntry hjournal hdata hnull hitems, fun hentries => ⟨?_, fun hbuildable => ?_⟩⟩⟩
  · rintro earlier entry later fault rfl hearlier hentry
    exact stops_of_rejects hjournal hdata hnull hitems hentries hearlier hentry
  · obtain ⟨read, hread, hall⟩ := Step.exists_mapM_ofValue w.store.bytes hentries
    have hsteps : steps w.store.bytes transforms = .ok read := by
      rw [steps_of_items hitems, hread]
    obtain ⟨built, s, hbuilt⟩ :=
      exists_outcome_build (.refl w.store) (not_refuses_of_not_rejects hall hbuildable)
    refine ⟨read, built, s, hall, hbuilt, fun fault => ?_⟩
    -- there are as many transforms as entries, so none without entries
    have hcalled := congrArg List.length (map_fst_of_build hbuilt)
    have hcount := hall.length_eq
    simp only [List.length_map] at hcalled
    have hempty : entries = [] ↔ built = [] := by
      rw [← List.length_eq_zero_iff, hcount, ← hcalled, List.length_eq_zero_iff]
    rw [hempty, ← applyAll_eq_error_iff]
    exact perform_eq_error_iff hdata hnull hsteps hbuilt

/-- A session with a buffer of two bytes and with null. -/
def faultyWorld : World :=
  (World.initial ⟨"/", []⟩ "").after
    [.allocate [1, 2], .call (.buffer "data" (.buffer 0)), .call (.buffer "none" .null)]

/-- An entry that is built and fails on all data but one byte. -/
def oneByteEntry : Value :=
  .dict [(.text "name", .text "and"), (.text "params", .dict [(.text "second", .bytes [1])])]

theorem ofValue_oneByteEntry :
    Step.ofValue faultyWorld.store.bytes oneByteEntry
      = .ok ⟨.text "and", .dict [(.text "second", .bytes [1])]⟩ := by
  cbv

theorem build_oneByteEntry :
    (Registry.builtin.build (.text "and") (.dict [(.text "second", .bytes [1])])).outcome
      faultyWorld.store = (.ok (.bitwise [1] .and), faultyWorld.store) := by
  cbv

/-- The calls of a pipeline with these entries, in place. -/
def faultyCall (buffer : String) (entries : List Value) : Session.Outcome × World :=
  faultyWorld.perform (.pipeline "main" buffer (.list entries) true none)

/-- Entries for four reasons to fail, of which those count that come first: the data are null, the
last entry is none, the second has an unknown name, before the third that lacks a parameter, and the
first fails on the data. -/
theorem pipeline_precedence_faulty :
    faultyWorld.Stops "main" .null (.list [oneByteEntry, .text "rot13", .text "copy", .int 5]) true
        (faultyCall "none" [oneByteEntry, .text "rot13", .text "copy", .int 5])
        (.nullParameter "data" none) ∧
      faultyWorld.Stops "main" (.buffer 0)
        (.list [oneByteEntry, .text "rot13", .text "copy", .int 5])
        true (faultyCall "data" [oneByteEntry, .text "rot13", .text "copy", .int 5])
        (.badValue .entryKind) ∧
      faultyWorld.Stops "main" (.buffer 0) (.list [oneByteEntry, .text "rot13", .text "copy"]) true
        (faultyCall "data" [oneByteEntry, .text "rot13", .text "copy"])
        (.unknownTransform (.text "rot13") "rot13") ∧
      (faultyCall "data" [oneByteEntry]).1 = .error (.fault (.lengthMismatch 1 2 "bitwise")) := by
  have hjournal : faultyWorld.store.journal = [] := World.journal_after rfl _
  have hnone : find? faultyWorld.buffers "none" = some .null := rfl
  have hdata : find? faultyWorld.buffers "data" = some (.buffer 0) := rfl
  have hnotext : ¬ Step.IsEntry (.int 5) := by
    rintro (h | ⟨entries, h⟩) <;> cases h
  have hfirst : Step.IsEntry oneByteEntry := Or.inr ⟨_, rfl⟩
  have hname : ∀ name, Step.IsEntry (.text name) := fun name => Or.inl rfl
  have hbuilt : ∀ fault, ¬ Registry.builtin.Rejects faultyWorld.store oneByteEntry fault := by
    rintro fault ⟨step, hstep, hrefused⟩
    rw [ofValue_oneByteEntry, Except.ok.injEq] at hstep
    rw [← hstep, Registry.Refuses, build_oneByteEntry] at hrefused
    cases hrefused
  refine ⟨(pipeline_precedence hjournal hnone "main" _ true none).1 rfl, ?_, ?_, ?_⟩
  · exact ((pipeline_precedence hjournal hdata "main" _ true none).2 _ rfl rfl).1
      ⟨.int 5, by simp, hnotext⟩
  · refine (((pipeline_precedence hjournal hdata "main" _ true none).2 _ rfl rfl).2 ?_).1
      [oneByteEntry] (.text "rot13") [.text "copy"] _ rfl (List.forall_mem_singleton.2 hbuilt)
      ⟨_, rfl, rfl⟩
    simp [hfirst, hname]
  · have hstages :=
      ((pipeline_precedence hjournal hdata "main" (.list [oneByteEntry]) true none).2 _
      rfl rfl).2 (by simp [hfirst])
    obtain ⟨read, built, s, hread, hbuild, hiff⟩ := hstages.2 (List.forall_mem_singleton.2 hbuilt)
    obtain ⟨step, rest, hstep, hrest, rfl⟩ := List.forall₂_cons_left_iff.1 hread
    cases hrest
    rw [ofValue_oneByteEntry, Except.ok.injEq] at hstep
    have hregistry : (faultyWorld.engine "main").1.registry = .builtin := rfl
    rw [← hstep, hregistry, build, Action.outcome_bind, build_oneByteEntry] at hbuild
    cases hbuild
    exact (hiff _).2 (Or.inl ⟨0, .here rfl⟩)

end Pipeline

end Octets
