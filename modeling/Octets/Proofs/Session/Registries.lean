import Octets.Proofs.Registry.History
import Octets.Proofs.Session.Growth

/-!
# The registries of a session

Every engine has a registry of its own. It is made when the engine is made, from the names of this
library and then the extensions; after that only calls that register a name with the engine change
it.

* `engine_act` — what does not register with an engine leaves it, its registry with it.
* `exists_engine_after` — a run adds its registrations, in order, by induction on the deeds.
* `files_discover` — extensions that are no families are warned of, in order.
* `registry_law` — what the registry of an engine is at any point after it has been made.
-/

namespace Octets

open Session

/-! ## Deeds that concern a registry -/

namespace Deed

/-- The deed registers a name with the engine. -/
def Registers (d : Deed) (id : String) : Prop :=
  ∃ name family defaults, d = .call (.register id name family defaults)

/-- The deed makes the engine anew. -/
def Discovers (d : Deed) (id : String) : Prop := ∃ extensions, d = .call (.discover id extensions)

end Deed

namespace World

/-! ## Engines that are kept -/

/-- Every engine of the first world stands under its name in the second, with its registry. -/
def KeepsEngines (w w' : World) : Prop :=
  ∀ id e, find? w.engines id = some e → find? w'.engines id = some e

theorem keepsEngines_of_eq {w w' : World} (h : w'.engines = w.engines) : w.KeepsEngines w' :=
  fun _ _ he => by rwa [h]

section

variable (w : World) (id : String)

theorem engine_of_find? {w : World} {id : String} {e : Engine} (h : find? w.engines id = some e) :
    w.engine id = (e, w) := by
  rw [engine, h]

theorem keepsEngines_engine : w.KeepsEngines (w.engine id).2 := by
  intro other e he
  unfold engine
  split
  · exact he
  · obtain ⟨entry, hentry, rfl⟩ := Option.map_eq_some_iff.1 he
    simp [find?, List.find?_append, hentry]

/-! ## Operations -/

theorem engines_make (action : Action Transform) : (w.make id action).2.engines = w.engines := by
  unfold make
  rcases hrun : w.run action with ⟨fault | t, w'⟩ <;>
    exact (congrArg (fun x => x.2.engines) hrun).symm

theorem engines_change (naming : Naming) (action : Value → Action Nat) :
    (w.change id naming action).2.engines = w.engines := by
  unfold change
  cases find? w.buffers id with
  | none => rfl
  | some v =>
    dsimp only
    rcases hrun : w.run (action v) with ⟨fault | ref, w'⟩
    · exact (congrArg (fun x => x.2.engines) hrun).symm
    · cases naming <;> exact (congrArg (fun x => x.2.engines) hrun).symm

theorem engines_reply {α : Type} (action : Action α) (answer : α → Reply) :
    (w.reply action answer).2.engines = w.engines := by
  unfold reply
  rcases hrun : w.run action with ⟨fault | a, w'⟩ <;>
    exact (congrArg (fun x => x.2.engines) hrun).symm

theorem engines_poke (index : Nat) (byte : UInt8) :
    (w.poke id index byte).2.engines = w.engines := by
  unfold poke
  split
  · rfl
  · dsimp only
    split <;> rfl
  · rfl

theorem engines_withInstance {answer : Instance → Outcome × World}
    (h : ∀ i, (answer i).2.engines = w.engines) :
    (w.withInstance id answer).2.engines = w.engines := by
  unfold withInstance
  split
  · rfl
  · rename_i i _
    exact h i

theorem engines_configure (level path : Value) :
    (w.configure id level path).2.engines = (w.engine id).2.engines := by
  unfold configure
  dsimp only
  split <;> rfl

theorem engines_log (level : Int) (message : String) (args : List Value)
    (exception : Option String) :
    (w.log level id message args exception).2.engines = w.engines := by
  have hemit : ∀ records, (w.emit records).engines = w.engines := fun _ => rfl
  unfold log
  split
  · exact hemit _
  · rfl

/-- To register with one engine does not touch the others. -/
theorem engine_register {other : String} {e : Engine} (h : find? w.engines other = some e)
    (hne : other ≠ id) (name : String) (family : Family) (defaults : Value) :
    find? (w.perform (.register id name family defaults)).2.engines other = some e := by
  have hkept := w.keepsEngines_engine id other e h
  unfold perform
  dsimp only
  split
  · exact hkept
  · exact (find?_bind_of_ne _ hne).trans hkept

end

/-! ## Deeds -/

/-- **Only what registers with an engine changes its registry.** -/
theorem engine_act {w : World} {id : String} {e : Engine}
    (h : find? w.engines id = some e) {d : Deed} (hregisters : ¬ d.Registers id)
    (hdiscovers : ¬ d.Discovers id) :
    find? (w.act d).engines id = some e := by
  have hcall : ∀ c, ¬ (Deed.call c).Registers id → ¬ (Deed.call c).Discovers id →
      find? (w.perform c).2.engines id = some e := by
    intro c hregisters hdiscovers
    have hengine : ∀ engine, find? (w.engine engine).2.engines id = some e := fun engine =>
      w.keepsEngines_engine engine id e h
    have heq : ∀ w' : World, w'.engines = w.engines → find? w'.engines id = some e := fun w' heq =>
      keepsEngines_of_eq heq id e h
    cases c with
    | build made engine name params =>
      show find? (make _ made _).2.engines id = some e
      rw [engines_make]
      exact hengine engine
    | fromParams made family params => exact heq _ (w.engines_make made _)
    | construct made family args => exact heq _ (w.engines_make made _)
    | poke buffer index byte => exact heq _ (w.engines_poke buffer index byte)
    | inspect made => exact heq _ (w.engines_withInstance made fun _ => rfl)
    | transform made buffer inPlace naming =>
      exact heq _ (w.engines_withInstance made fun _ => w.engines_change buffer naming _)
    | apply engine buffer name params inPlace naming =>
      show find? (change _ buffer naming _).2.engines id = some e
      rw [engines_change]
      exact hengine engine
    | pipeline engine buffer transforms inPlace naming =>
      show find? (change _ buffer naming _).2.engines id = some e
      rw [engines_change]
      exact hengine engine
    | assign made field v =>
      refine heq _ (w.engines_withInstance made fun i => ?_)
      split
      · rfl
      · exact w.engines_withInstance made fun _ => rfl
    | force made field v => exact heq _ (w.engines_withInstance made fun _ => rfl)
    | same a b =>
      exact heq _ (w.engines_withInstance a fun _ => w.engines_withInstance b fun _ => rfl)
    | register engine name family defaults =>
      refine w.engine_register engine h ?_ name family defaults
      rintro rfl
      exact hregisters ⟨name, family, defaults, rfl⟩
    | names engine => exact hengine engine
    | describe engine name params =>
      show find? (reply _ _ _).2.engines id = some e
      rw [engines_reply]
      exact hengine engine
    | discover engine extensions =>
      refine (find?_bind_of_ne _ ?_).trans h
      rintro rfl
      exact hdiscovers ⟨extensions, rfl⟩
    | configure engine level path =>
      show find? (configure _ engine level path).2.engines id = some e
      rw [engines_configure]
      exact hengine engine
    | close engine => exact hengine engine
    | log level logger message args exception =>
      exact heq _ (w.engines_log logger level message args exception)
    | buffer _ _ => exact h
    | generator _ _ => exact h
    | readLog _ => exact h
  rcases d with bs | g | c
  · exact h
  · exact h
  · exact hcall c hregisters hdiscovers

/-! ## Runs -/

/-- What a deed registers with an engine: a call that is refused registers nothing. The defaults are
taken as they are at the call. -/
def registration? (w : World) (id : String) : Deed → Option Registration
  | .call (.register engine name family defaults) =>
    if engine = id then (Dict.update w.store.bytes [] defaults).toOption.map fun d =>
      ⟨name, family, d⟩
    else none
  | _ => none

/-- What a run registers with an engine, in order. -/
def registrations (w : World) (id : String) : List Deed → List Registration
  | [] => []
  | d :: rest => (w.registration? id d).toList ++ (w.act d).registrations id rest

section

variable {w : World} {id : String} {e : Engine}

theorem registration?_of_not_registers {d : Deed} (h : ¬ d.Registers id) :
    w.registration? id d = none := by
  unfold registration?
  split
  · rename_i engine name family defaults
    refine if_neg ?_
    rintro rfl
    exact h ⟨name, family, defaults, rfl⟩
  · rfl

/-- A deed adds what it registers to the registry of an engine. -/
theorem exists_engine_act (h : find? w.engines id = some e) {d : Deed} (hd : ¬ d.Discovers id) :
    ∃ e', find? (w.act d).engines id = some e' ∧
      e'.registry = e.registry.replay (w.registration? id d).toList := by
  by_cases hregisters : d.Registers id
  · obtain ⟨name, family, defaults, rfl⟩ := hregisters
    simp only [act, perform, registration?, if_true, engine_of_find? h]
    cases Dict.update w.store.bytes [] defaults with
    | error fault => exact ⟨e, h, rfl⟩
    | ok d => exact ⟨_, find?_bind _ _ _, rfl⟩
  · rw [registration?_of_not_registers hregisters]
    exact ⟨e, engine_act h hregisters hd, rfl⟩

/-- **A run adds what it registers to the registry of an engine, in order.** -/
theorem exists_engine_after {deeds : List Deed} (h : find? w.engines id = some e)
    (hdeeds : ∀ d ∈ deeds, ¬ d.Discovers id) :
    ∃ e', find? (w.after deeds).engines id = some e' ∧
      e'.registry = e.registry.replay (w.registrations id deeds) := by
  induction deeds generalizing w e with
  | nil => exact ⟨e, h, rfl⟩
  | cons d rest ih =>
    obtain ⟨hd, hrest⟩ := List.forall_mem_cons.1 hdeeds
    obtain ⟨e₁, he₁, hregistry₁⟩ := exists_engine_act h hd
    obtain ⟨e₂, he₂, hregistry₂⟩ := ih he₁ hrest
    refine ⟨e₂, he₂, ?_⟩
    rw [hregistry₂, hregistry₁, registrations, Registry.replay_append]

end

/-! ## Extensions -/

end World

/-- What is warned of an extension that is no family. -/
def Extension.warning (e : Extension) : String :=
  "ignoring entry point " ++ e.name ++ ": not a TransformPlugin subclass"

/-- The extensions that are no families. -/
def Extension.strays (extensions : List Extension) : List Extension :=
  extensions.filter (·.family.isNone)

theorem Extension.warnings_eq (extensions : List Extension) :
    Extension.warnings extensions = (Extension.strays extensions).map Extension.warning := by
  induction extensions with
  | nil => rfl
  | cons e rest ih =>
    obtain ⟨name, family⟩ := e
    cases family with
    | none => exact congrArg (Extension.warning ⟨name, none⟩ :: ·) ih
    | some family => exact ih

namespace Log.Logging

/-- Records below the root level are written nowhere. -/
theorem emitAll_of_lt {logging : Logging} {rs : List Record}
    (h : ∀ r ∈ rs, r.level < logging.rootLevel) (stamp : String) (files : Files) :
    logging.emitAll stamp files rs = files := by
  unfold emitAll
  induction rs with
  | nil => rfl
  | cons r rest ih =>
    obtain ⟨hr, hrest⟩ := List.forall_mem_cons.1 h
    have hnone : logging.handlers.filter (logging.reaches r.level) = [] := by
      rw [List.filter_eq_nil_iff]
      intro handler _ hreaches
      simp only [reaches, Bool.and_eq_true, decide_eq_true_eq] at hreaches
      exact absurd hreaches.1.2 (Int.not_le.2 hr)
    have hfirst : logging.emit stamp files r = files := by
      unfold emit
      rw [hnone]
      split <;> rfl
    rw [List.foldl_cons, hfirst]
    exact ih hrest

end Log.Logging

namespace World

section

variable (w : World) (id : String) (extensions : List Extension)

/-- **Each extension that is no family gives one warning, in order**, and nothing else is
written. -/
theorem files_discover :
    (w.perform (.discover id extensions)).2.files = w.logging.emitAll w.stamp w.files
      ((Extension.strays extensions).map fun e => Log.ofWarning e.warning) := by
  show w.logging.emitAll w.stamp w.files _ = _
  rw [Extension.warnings_eq]
  split
  · rw [List.map_map]
    rfl
  · rename_i hlevel
    symm
    refine Log.Logging.emitAll_of_lt ?_ w.stamp w.files
    intro r hr
    obtain ⟨e, -, rfl⟩ := List.mem_map.1 hr
    exact Int.not_le.1 hlevel

theorem find?_discover :
    find? (w.perform (.discover id extensions)).2.engines id
      = some ⟨w.serial, Registry.builtin.extend extensions⟩ :=
  find?_bind _ _ _

end

/-! ## The law -/

/-- What has been registered with an engine that is made from extensions, and then used: the names
of this library, the extensions that are families, and what the run registers. -/
def history (w : World) (id : String) (extensions : List Extension) (deeds : List Deed) :
    List Registration :=
  Registry.builtin ++ extensions.filterMap Extension.registration? ++
    (w.perform (.discover id extensions)).2.registrations id deeds

/-- **The law of registries.** Take an engine made from any extensions, at any point of a run in
which it is not made anew. Its registry reflects what has been registered with it, and with no other
engine, and lists the names of this library first. Nothing but a registration changes it. The
extensions that are no families have been warned of, each once and in order. -/
theorem registry_law {w w' : World} {id : String} {extensions : List Extension} {deeds : List Deed}
    (hdeeds : ∀ d ∈ deeds, ¬ d.Discovers id)
    (hw' : (w.perform (.discover id extensions)).2.after deeds = w') :
    (∃ e, find? w'.engines id = some e ∧ e.registry.Reflects (w.history id extensions deeds) ∧
      Registry.builtin.names <+: e.registry.names ∧
      (w'.perform (.names id)).1 = .ok (.names e.registry.names) ∧
      ∀ d : Deed, ¬ d.Registers id → ¬ d.Discovers id → find? (w'.act d).engines id = some e) ∧
    (w.perform (.discover id extensions)).2.files = w.logging.emitAll w.stamp w.files
      ((Extension.strays extensions).map fun e => Log.ofWarning e.warning) := by
  refine ⟨?_, w.files_discover id extensions⟩
  obtain ⟨e, he, hregistry⟩ := exists_engine_after (w.find?_discover id extensions) hdeeds
  rw [hw'] at he
  have hreplay : e.registry = Registry.replay [] (w.history id extensions deeds) := by
    rw [hregistry, history, Registry.replay_append, Registry.replay_append, Registry.replay_builtin,
      Registry.extend_eq_replay]
  have hreflects : e.registry.Reflects (w.history id extensions deeds) := by
    rw [hreplay]
    exact Registry.reflects_replay _
  refine ⟨e, he, hreflects, ?_, ?_, fun d hregisters hdiscovers =>
    engine_act he hregisters hdiscovers⟩
  · rw [hreflects.names, history, List.append_assoc, List.map_append, List.eraseDups_append]
    exact ⟨_, rfl⟩
  · show Except.ok (Reply.names (w'.engine id).1.registry.names) = _
    rw [engine_of_find? he]

/-- One extension replaces a name of this library, one is no family, and one brings a new name. -/
def sampleExtensions : List Extension :=
  [⟨"xor", some (.builtin .reverse)⟩, ⟨"plain", none⟩, ⟨"flip", some (.builtin .negate)⟩]

/-- The new name is registered again, with a default; another engine registers another one. -/
def sampleDeeds : List Deed :=
  [.call (.register "main" "flip" (.builtin .resize) (.dict [(.text "new_size", .int 2)])),
    .call (.register "other" "late" (.builtin .negate) .null),
    .call (.register "main" "never" (.builtin .negate) (.int 1))]

/-- A name that is replaced keeps its place and loses its defaults. -/
theorem registry_law_replaced :
    ∃ e, find? (((initial ⟨"/", []⟩ "").perform (.discover "main" sampleExtensions)).2.after
        sampleDeeds).engines "main" = some e ∧
      e.registry.names = Registry.builtin.names ++ ["flip"] ∧
      e.registry.lookup (fun _ => []) (.text "xor") = .ok ⟨"xor", .builtin .reverse, []⟩ ∧
      e.registry.lookup (fun _ => []) (.text "flip")
        = .ok ⟨"flip", .builtin .resize, [(.text "new_size", .int 2)]⟩ := by
  have hdeeds : ∀ d ∈ sampleDeeds, ¬ d.Discovers "main" := by
    simp [sampleDeeds, Deed.Discovers]
  have hworld :
    ((initial ⟨"/", []⟩ "").perform (.discover "main" sampleExtensions)).2.after sampleDeeds
      = _ := rfl
  obtain ⟨⟨e, he, hreflects, -⟩, -⟩ := registry_law hdeeds hworld
  refine ⟨e, he, ?_, ?_, ?_⟩
  · rw [hreflects.names]
    decide
  · rw [hreflects.lookup]
    rfl
  · rw [hreflects.lookup]
    rfl

end World

end Octets
