import Octets.Command.Program
import Octets.Proofs.Pipeline.Fold
import Octets.Proofs.Registry.Soundness

/-!
# Faults that are told

The program has words for most faults: a report, if one can be written, or a message. Those of a
pipeline for which it has none come from a step whose name or parameters are of the wrong kind, or
that is a shuffle with a seed that seeds nothing (`Step.Untold`), or else from a limit of the
machine that is exceeded.

* `Family.only_told_ofParams`, `Registry.only_build` — the faults of building one transform.
* `only_effect`, `Pipeline.only_applyAll` — the faults of applying, by induction on the steps.
* `Pipeline.only_run` — the faults of a pipeline.
-/

namespace Octets

open Octets.Random (Generator)

/-! ## Faults with words -/

namespace Fault

/-- The program tells the fault: by a report that can be written, or by a message. -/
inductive IsTold : Fault → Prop
  | report {fault : Fault} {report : Report} {json : String} (h : fault.report? = some report)
      (hjson : Json.write true report.toDict = .ok json) : IsTold fault
  | option (cause : OptionFlaw) : IsTold (.option cause)
  | badValue (cause : BadValue) : IsTold (.badValue cause)
  | json {cause : Json.Fault} (h : ∀ nest, cause ≠ .tooDeep nest) : IsTold (.json cause)
  | encoding (cause : Text.Utf8.Fault) : IsTold (.encoding cause)
  | markup : IsTold .markup
  | file (flaw : FileFlaw) (path : PathName) : IsTold (.file flaw path)

/-- Something is of the wrong kind. -/
def IsMismatch (fault : Fault) : Prop := ∃ cause, fault = .wrongKind cause

/-- A limit of the machine is exceeded. -/
def IsOverflow (fault : Fault) : Prop := ∃ cause, fault = .overflow cause

/-- A report with a text as its message can be written if the name in it can. -/
theorem exists_write_toDict (report : Report) {text transform : String}
    (hmessage : report.message = .text text)
    (htransform : Json.write true report.transform = .ok transform) :
    ∃ json, Json.write true report.toDict = .ok json := by
  simp [Report.toDict, Json.write, Json.writeEntries, Json.keyText, Value.asText?, hmessage,
    htransform, bind, Except.bind, pure, Except.pure]

theorem exists_write_named (transform : Option String) :
    ∃ text, Json.write true (named transform) = .ok text := by
  cases transform <;> simp [named, Json.write]

variable {fault : Fault}

/-- A fault is told if it has a report whose message is a text and whose name can be written. -/
theorem isTold_of_report? {report : Report} {text transform : String}
    (h : fault.report? = some report) (hmessage : report.message = .text text)
    (htransform : Json.write true report.transform = .ok transform) : fault.IsTold := by
  obtain ⟨json, hjson⟩ := exists_write_toDict report hmessage htransform
  exact .report h hjson

theorem isTold_unusable (cause : Objection) (transform : Option String) :
    IsTold (.unusable cause transform) := by
  obtain ⟨name, hname⟩ := exists_write_named transform
  exact isTold_of_report? rfl rfl hname

theorem isTold_nullParameter (parameter : String) (transform : Option String) :
    IsTold (.nullParameter parameter transform) := by
  obtain ⟨name, hname⟩ := exists_write_named transform
  exact isTold_of_report? rfl rfl hname

theorem isTold_lengthMismatch (expected actual : Nat) (transform : String) :
    IsTold (.lengthMismatch expected actual transform) := by
  obtain ⟨name, hname⟩ := exists_write_named (some transform)
  exact isTold_of_report? rfl rfl hname

theorem isTold_ofRange (first last : Int) (length : Nat) (transform : String) :
    IsTold (ofRange first last length transform) := by
  obtain ⟨name, hname⟩ := exists_write_named (some transform)
  unfold ofRange
  split
  · exact isTold_of_report? rfl rfl hname
  · exact .badValue _

theorem isTold_unknownTransform {name : Value} {json : String} (h : Json.write true name = .ok json)
    (text : String) : IsTold (.unknownTransform name text) :=
  isTold_of_report? rfl rfl h

theorem not_isTold_of_isMismatch (h : fault.IsMismatch) : ¬ fault.IsTold := by
  obtain ⟨cause, rfl⟩ := h
  rintro (⟨hreport, -⟩ | _)
  cases hreport

theorem not_isTold_overflow (cause : Overflow) : ¬ IsTold (.overflow cause) := by
  rintro (⟨hreport, -⟩ | _)
  cases hreport

theorem not_isTold_tooDeep (nest : Json.Nest) : ¬ IsTold (.json (.tooDeep nest)) := by
  intro h
  cases h with
  | report hreport _ => cases hreport
  | json hdeep => exact hdeep nest rfl

/-- If the name has no form, the report has none. -/
theorem not_isTold_unknownTransform {name : Value} {kind : String}
    (h : Json.write true name = .error kind) (text : String) :
    ¬ IsTold (.unknownTransform name text) := by
  intro htold
  cases htold with
  | report hreport hjson =>
    cases hreport
    simp [Report.toDict, Report.unknownTransform, Json.write, Json.writeEntries, Json.keyText,
      Value.asText?, h, bind, Except.bind] at hjson

theorem IsObjection.isTold (h : fault.IsObjection) : fault.IsTold := by
  rcases h with ⟨cause, transform, rfl⟩ | ⟨parameter, transform, rfl⟩
  · exact isTold_unusable cause transform
  · exact isTold_nullParameter parameter transform

end Fault

open Fault (IsTold)

/-! ## Making transforms -/

/-- **The faults of making a transform** are told, unless a shuffle lacks a seed. -/
theorem Family.only_told_ofParams (k : Kind) (params : Dict) :
    ((builtin k).ofParams params).Only fun fault =>
      fault.IsTold ∨ fault = .wrongKind .seed ∧ k = .shuffle ∧ params.LacksSeed := by
  refine only_ofParams (fun fault h => Or.inl h.isTold) ⟨?_, ?_, ?_, ?_⟩
  · exact fun e _ => Or.inr (Or.inl (.badValue _))
  · exact fun e _ => Or.inr (Or.inl (.badValue _))
  · exact fun text cause _ _ => Or.inl (.badValue _)
  · exact fun hkind hlacks => Or.inr ⟨rfl, hkind, hlacks⟩

/-! ## Building steps -/

namespace Step

/-- The parameters of the step are a dictionary. -/
def IsKeyed (s : Step) : Prop := ∃ pairs, s.params.opened = .dict pairs

/-- The step is a shuffle without a generator, with something that seeds nothing in the place of the
seed. -/
def LacksSeed (s : Step) : Prop :=
  s.name.asText? = some "shuffle" ∧
    ∃ pairs, s.params.opened = .dict pairs ∧ (Dict.ofPairs pairs).LacksSeed

/-- The faults of building a step for which the program has no words. -/
inductive Untold (s : Step) : Fault → Prop
  | unhashable {kind : String} (h : s.name.unhashable? = some kind) :
    Untold s (.wrongKind (.unhashable kind))
  /-- The report has no form, because the name has none. -/
  | nameless {kind : String} (h : Json.write true s.name = .error kind) (text : String) :
    Untold s (.unknownTransform s.name text)
  | unkeyed (h : ¬ s.IsKeyed) (cause : Mismatch) : Untold s (.wrongKind cause)
  | seedless (h : s.LacksSeed) : Untold s (.wrongKind .seed)

/-- There are indeed no words for them. -/
theorem Untold.not_isTold {s : Step} {fault : Fault} (h : s.Untold fault) : ¬ fault.IsTold := by
  cases h with
  | unhashable _ => exact Fault.not_isTold_of_isMismatch ⟨_, rfl⟩
  | nameless h text => exact Fault.not_isTold_unknownTransform h text
  | unkeyed _ cause => exact Fault.not_isTold_of_isMismatch ⟨cause, rfl⟩
  | seedless _ => exact Fault.not_isTold_of_isMismatch ⟨_, rfl⟩

end Step

namespace Dict

theorem only_pairOf (contents : Nat → Bytes) (index : Nat) (item : Value) :
    Only (fun fault => fault.IsTold ∨ fault.IsMismatch) (pairOf contents index item) := by
  unfold pairOf
  split
  · exact only_error (Or.inr ⟨_, rfl⟩)
  · split
    · exact only_error (Or.inr ⟨_, rfl⟩)
    · exact only_ok _
  · exact only_error (Or.inl (.badValue _))

theorem only_pairsFrom (contents : Nat → Bytes) (index : Nat) (items : List Value) :
    Only (fun fault => fault.IsTold ∨ fault.IsMismatch)
      (pairsFrom contents index items) := by
  induction items generalizing index with
  | nil => exact only_ok _
  | cons item rest ih =>
    exact (only_pairOf contents index item).bind fun _ _ => (ih _).bind fun _ _ => only_ok _

/-- What is no dictionary may be of the wrong kind for a parameter dictionary. -/
theorem only_pairsOf (contents : Nat → Bytes) (v : Value) :
    Only (fun fault => fault.IsTold ∨ fault.IsMismatch) (pairsOf contents v) := by
  unfold pairsOf
  split
  · exact only_ok _
  · refine Only.bind ?_ fun items _ => only_pairsFrom contents 0 items
    unfold Value.items
    split
    · exact only_ok _
    · exact only_error (Or.inr ⟨_, rfl⟩)

theorem only_update (contents : Nat → Bytes) (d : Dict) (v : Value) :
    Only (fun fault => fault.IsTold ∨ fault.IsMismatch) (update contents d v) := by
  unfold update
  split
  · exact (only_pairsOf contents v).map
  · exact only_ok _

variable {contents : Nat → Bytes} {v : Value} {pairs : List (Value × Value)}

theorem pairsOf_of_opened (h : v.opened = .dict pairs) : pairsOf contents v = .ok pairs := by
  unfold pairsOf
  rw [h]

theorem items?_of_opened (h : v.opened = .dict pairs) :
    v.items? contents = some (pairs.map (·.1)) := by
  cases v with
  | dict entries =>
    cases h
    rfl
  | knot number content => simp only [Value.items?, Value.asText?, Value.asBytes?, h]
  | _ => cases h

theorem update_of_opened (h : v.opened = .dict pairs) (d : Dict) :
    update contents d v = .ok (putAll d pairs) := by
  unfold update
  cases pairs with
  | nil => rw [if_neg (by simp [Value.holds, items?_of_opened h])]; rfl
  | cons e rest =>
    rw [if_pos (by simp [Value.holds, items?_of_opened h]), pairsOf_of_opened h]
    rfl

end Dict

namespace Registry

theorem only_lookup (s : Step) (contents : Nat → Bytes) :
    Only (fun fault => fault.IsTold ∨ s.Untold fault) (builtin.lookup contents s.name) := by
  unfold lookup
  split
  · rename_i kind _ hkind
    exact only_error (Or.inr (.unhashable hkind))
  · exact only_ok _
  · refine Only.bind (s.name.only_printed contents (Or.inr (Or.inl (.badValue _)))) fun text _ =>
      only_error ?_
    cases hname : Json.write true s.name with
    | ok json => exact Or.inl (Fault.isTold_unknownTransform hname text)
    | error kind => exact Or.inr (.nameless hname text)

theorem asText?_of_lookup {contents : Nat → Bytes} {name : Value} {entry : Registration}
    (h : builtin.lookup contents name = .ok entry) : name.asText? = some entry.name := by
  unfold lookup at h
  split at h
  · cases h
  · rename_i hfound
    cases h
    obtain ⟨text, htext, hfind⟩ := Option.bind_eq_some_iff.1 hfound
    have hname := List.find?_some hfind
    rw [htext, of_decide_eq_true hname]
  · obtain ⟨_, -, h⟩ := ok_of_bind h
    cases h

/-- **The faults of building a step** are told, but for those that the step is to blame for. -/
theorem only_build (s : Step) :
    (builtin.build s.name s.params).Only fun fault => fault.IsTold ∨ s.Untold fault := by
  intro store
  unfold build
  rw [Action.outcome_bind, Action.outcome_reading]
  cases hlookup : builtin.lookup store.bytes s.name with
  | error fault => exact only_error (only_lookup s store.bytes fault hlookup)
  | ok entry =>
    obtain ⟨k, hentry⟩ := exists_isSound (mem_of_lookup hlookup)
    simp only [Action.outcome_bind, Action.outcome_reading, hentry.family]
    cases hupdate : Dict.update store.bytes entry.defaults s.params with
    | error fault =>
      refine only_error ((Dict.only_update _ _ _ fault hupdate).imp_right ?_)
      rintro ⟨cause, rfl⟩
      refine .unkeyed ?_ cause
      rintro ⟨pairs, hpairs⟩
      rw [Dict.update_of_opened hpairs] at hupdate
      cases hupdate
    | ok merged =>
      refine (Family.only_told_ofParams k merged store).mono fun fault => Or.imp_right ?_
      rintro ⟨rfl, hkind, hlacks⟩
      by_cases hkeyed : s.IsKeyed
      · obtain ⟨pairs, hpairs⟩ := hkeyed
        rw [Dict.update_of_opened hpairs, hentry.defaults_shuffle hkind] at hupdate
        cases hupdate
        exact .seedless ⟨by rw [asText?_of_lookup hlookup, hentry.shuffle_iff.1 hkind], pairs,
          hpairs, hlacks⟩
      · exact .unkeyed hkeyed _

end Registry

/-! ## Applying -/

namespace Transform

variable {t : Transform}

/-- **The faults of an effect** are told, or a limit of the machine is exceeded. -/
theorem only_effect (t : Transform) (bs : Bytes) (gs : List Generator) :
    Only (fun fault => fault.IsTold ∨ fault.IsOverflow) (t.effect bs gs) := by
  cases t with
  | bitwise second mode =>
    simp only [effect]
    split
    · exact only_error (Or.inl (Fault.isTold_lengthMismatch _ _ _))
    · exact only_ok _
  | negate => exact only_ok _
  | shift count direction =>
    simp only [effect]
    split
    · exact only_error (Or.inl (Fault.isTold_unusable _ _))
    · split
      · exact only_error (Or.inr ⟨_, rfl⟩)
      · exact only_ok _
  | concat second => exact only_ok _
  | reverse => exact only_ok _
  | sort comparator =>
    cases comparator with
    | none => exact only_ok _
    | some c =>
      simp only [effect]
      split
      · exact only_ok _
      · exact only_error (Or.inl (.badValue _))
  | shuffle kind ref =>
    obtain ⟨out, after, heffect⟩ := effect_shuffle kind ref bs gs
    rw [heffect]
    exact only_ok _
  | copy offset length =>
    simp only [effect]
    split
    · exact only_error (Or.inl (Fault.isTold_ofRange _ _ _ _))
    · exact only_ok _
  | resize size =>
    simp only [effect]
    split
    · exact only_ok _
    split
    · exact only_error (Or.inl (Fault.isTold_unusable _ _))
    split
    · exact only_ok _
    split
    · split
      · exact only_error (Or.inr ⟨_, rfl⟩)
      · exact only_ok _
    · exact only_ok _
  | added plugin values => exact only_ok _

/-- A buffer can be overwritten, so only the effect is refused. -/
theorem only_result (t : Transform) (ref : Nat) (inPlace : Bool) (bs : Bytes) (s : Store) :
    Only (fun fault => fault.IsTold ∨ fault.IsOverflow)
      (t.result (.buffer ref) inPlace bs s).1 := by
  cases heffect : t.effect bs s.generators with
  | error fault =>
    rw [result_of_error heffect]
    exact only_error (only_effect t bs s.generators fault heffect)
  | ok after =>
    obtain ⟨out, gs⟩ := after
    rw [result_of_ok heffect]
    cases hreuses : inPlace && t.reuses bs.length with
    | false =>
      rw [deliver_of_not_reuses hreuses]
      exact only_ok _
    | true =>
      obtain ⟨rfl, ht⟩ := Bool.and_eq_true_iff.1 hreuses
      rw [deliver_buffer ref ht]
      exact only_ok _

theorem only_integerText (n : Int) : Only IsTold (integerText n) := by
  unfold integerText
  exact only_mapError fun cause => .badValue (.excess cause)

theorem only_describe (ht : t.IsOwn) (contents : Nat → Bytes) :
    Only IsTold (t.describe contents) := by
  cases t with
  | bitwise second mode => exact only_ok _
  | negate => exact only_ok _
  | shift count direction => exact (only_integerText _).bind fun _ _ => only_ok _
  | concat second => exact only_ok _
  | reverse => exact only_ok _
  | sort comparator => cases comparator <;> exact only_ok _
  | shuffle kind ref => exact only_ok _
  | copy offset length =>
    exact (only_integerText _).bind fun _ _ => (only_integerText _).bind fun _ _ => only_ok _
  | resize size => exact (only_integerText _).bind fun _ _ => only_ok _
  | added plugin values => cases ht

end Transform

namespace Pipeline

theorem only_applyStep {t : Transform} (ht : t.IsOwn) (name : Value) (ref : Nat) (inPlace : Bool) :
    (applyStep name t (.buffer ref) inPlace).Only fun fault => fault.IsTold ∨ fault.IsOverflow := by
  intro s
  have hresult := t.only_result ref inPlace (s.bytes ref) s
  rw [outcome_applyStep ht rfl]
  rcases hrun : t.result (.buffer ref) inPlace (s.bytes ref) s with ⟨fault | out, s'⟩ <;>
    rw [hrun] at hresult
  · exact hresult
  · have hdescribe := Transform.only_describe ht s'.bytes
    dsimp only
    cases hdescription : t.describe s'.bytes with
    | error fault => exact only_error (Or.inl (hdescribe fault hdescription))
    | ok description => exact only_ok _

theorem only_applyFrom {built : List (Value × Transform)} (h : ∀ e ∈ built, e.2.IsOwn) (ref : Nat) :
    (applyFrom ref built).Only fun fault => fault.IsTold ∨ fault.IsOverflow := by
  induction built generalizing ref with
  | nil => exact Action.only_pure _
  | cons e rest ih =>
    obtain ⟨ht, hrest⟩ := List.forall_mem_cons.1 h
    exact (only_applyStep ht e.1 ref true).bind fun next => ih hrest next

/-- **The faults of applying transforms to a buffer** are told, or a limit of the machine is
exceeded. -/
theorem only_applyAll {built : List (Value × Transform)} (h : ∀ e ∈ built, e.2.IsOwn) (ref : Nat)
    (inPlace : Bool) :
    (applyAll (.buffer ref) inPlace built).Only fun fault => fault.IsTold ∨ fault.IsOverflow := by
  cases built with
  | nil =>
    cases inPlace with
    | true => exact Action.only_pure _
    | false =>
      intro s
      simp only [applyAll]
      rw [Action.outcome_toBuffer rfl]
      exact only_ok _
  | cons e rest =>
    obtain ⟨ht, hrest⟩ := List.forall_mem_cons.1 h
    exact (only_applyStep ht e.1 ref inPlace).bind fun next => only_applyFrom hrest next

/-! ## Pipelines -/

theorem only_build (steps : List Step) :
    (build .builtin steps).Only fun fault => fault.IsTold ∨ ∃ s ∈ steps, s.Untold fault := by
  induction steps with
  | nil => exact Action.only_pure _
  | cons s rest ih =>
    refine ((Registry.only_build s).mono fun fault => Or.imp_right fun h => ?_).bind fun t => ?_
    · exact ⟨s, List.mem_cons_self, h⟩
    · refine (ih.mono fun fault => Or.imp_right ?_).bind fun _ => Action.only_pure _
      rintro ⟨s', hmem, h⟩
      exact ⟨s', List.mem_cons_of_mem _ hmem, h⟩

/-- The step that is read from the value of this one: parameters that hold nothing are none. -/
def reread (contents : Nat → Bytes) (s : Step) : Step :=
  ⟨s.name, if s.params.holds contents then s.params else .dict []⟩

theorem ofValue_toValue (contents : Nat → Bytes) (s : Step) :
    Step.ofValue contents s.toValue = .ok (reread contents s) := by
  simp [Step.ofValue, Step.toValue, reread, Value.asText?, Value.opened, Dict.get, Dict.get?_cons]

theorem mapM_ofValue_toValue (contents : Nat → Bytes) (steps : List Step) :
    (steps.map Step.toValue).mapM (Step.ofValue contents) = .ok (steps.map (reread contents)) := by
  induction steps with
  | nil => rfl
  | cons s rest ih =>
    rw [List.map_cons, List.mapM_cons, ofValue_toValue, ih]
    rfl

/-- What a step is to blame for once it is read again, it was to blame for before. -/
theorem untold_of_reread {contents : Nat → Bytes} {s : Step} {fault : Fault}
    (h : (reread contents s).Untold fault) : s.Untold fault := by
  unfold reread at h
  split at h
  · exact h
  · cases h with
    | unhashable h => exact .unhashable h
    | nameless h text => exact Step.Untold.nameless (s := s) h text
    | unkeyed h cause => exact absurd ⟨[], rfl⟩ h
    | seedless h =>
      obtain ⟨-, _, ⟨⟩, -, hseed, -⟩ := h
      cases hseed

/-- **The faults of a pipeline** that works on a buffer are told, but for limits of the machine and
for what one of its steps is to blame for. -/
theorem only_run (steps : List Step) (ref : Nat) (inPlace : Bool) :
    (run .builtin (.buffer ref) (.list (steps.map Step.toValue)) inPlace).Only fun fault =>
      fault.IsTold ∨ fault.IsOverflow ∨ ∃ s ∈ steps, s.Untold fault := by
  intro s
  have hread : Pipeline.steps s.bytes (.list (steps.map Step.toValue)) =
      .ok (steps.map (reread s.bytes)) := mapM_ofValue_toValue s.bytes steps
  rw [outcome_run_of_steps rfl hread, Action.outcome_bind]
  rcases hbuilt : (build .builtin (steps.map (reread s.bytes))).outcome s with ⟨fault | built, s'⟩
  · refine only_error ((only_build _ s fault (by rw [hbuilt])).imp_right fun h => Or.inr ?_)
    obtain ⟨_, hmem, h⟩ := h
    obtain ⟨step, hstep, rfl⟩ := List.mem_map.1 hmem
    exact ⟨step, hstep, untold_of_reread h⟩
  · have hown := isOwn_of_build Registry.isOwn_builtin hbuilt
    exact (only_applyAll hown ref inPlace s').mono fun _ => Or.imp_right Or.inl

end Pipeline

end Octets
