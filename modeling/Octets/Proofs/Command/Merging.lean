import Octets.Proofs.Command.Reports
import Octets.Proofs.Json.Documents
import Octets.Proofs.Value.Lookup

/-!
# What options make of the steps

Options are set one after the other in all steps, but each step could as well take them up alone:
what it is in the end depends on it and on the options (`Step.merged`). For every parameter the last
option counts that names the step and the key; without one, the step keeps what it had.

* `ofText?_eq_some_iff` — an option is read exactly if it is written as one (`IsWritten`).
* `accepts_or_refuses` — each option is set or refused, whatever has been set before it.
* `eq_merged_of_applyAll`, `applyAll_of_accepts` — all steps take up the options for themselves.
* `get?_merged` — the value of a parameter; the induction is on the options.
* `applyAll_merges` — the options of a job, with the first that is refused.
-/

namespace Octets

/-! ## Maps that can fail -/

section

variable {α β : Type} {f : α → Except Fault β} {g : α → β} {l : List α}

theorem mapM_of_forall (h : ∀ a ∈ l, f a = .ok (g a)) : l.mapM f = .ok (l.map g) := by
  induction l with
  | nil => rfl
  | cons a rest ih =>
    obtain ⟨ha, hrest⟩ := List.forall_mem_cons.1 h
    rw [List.mapM_cons, ha, ih hrest]
    rfl

theorem eq_map_of_mapM {l' : List β} (h : l.mapM f = .ok l') (hf : ∀ a b, f a = .ok b → b = g a) :
    l' = l.map g := by
  induction l generalizing l' with
  | nil =>
    cases h
    rfl
  | cons a rest ih =>
    rw [List.mapM_cons] at h
    obtain ⟨b, hb, h⟩ := ok_of_bind h
    obtain ⟨more, hmore, h⟩ := ok_of_bind h
    cases h
    rw [List.map_cons, ← hf a b hb, ← ih hmore]

end

/-! ## Parameters of a step -/

namespace Step

/-- The parameters as a dictionary; it is empty if they are nothing of the kind. -/
def pairs (s : Step) : Dict :=
  match Dict.pairsOf (fun _ => []) s.params with
  | .ok pairs => Dict.ofPairs pairs
  | .error _ => []

/-- The value of a parameter. -/
def get? (s : Step) (key : String) : Option Value := Dict.get? s.pairs key

/-- The step with a value for one of its parameters. -/
def set (s : Step) (key : String) (v : Value) : Step :=
  { s with params := .dict (Dict.put s.pairs (.text key) v) }

/-- The parameters are a dictionary with texts as its keys. -/
structure IsMapped (s : Step) : Prop where
  opened : s.params.opened = .dict s.pairs
  keys : ∀ e ∈ s.pairs, e.1.asText?.isSome = true

variable {s : Step} {d : Dict}

theorem isDistinct_pairs (s : Step) : s.pairs.IsDistinct := by
  unfold pairs
  split
  · exact Dict.isDistinct_ofPairs _
  · exact List.Pairwise.nil

theorem pairs_of_opened (h : s.params.opened = .dict d) (hd : d.IsDistinct) : s.pairs = d := by
  unfold pairs
  rw [Dict.pairsOf_of_opened h]
  exact Dict.ofPairs_of_isDistinct hd

/-- Every dictionary of texts will do. -/
theorem isMapped_of_opened (h : s.params.opened = .dict d) (hd : d.IsDistinct)
    (hkeys : ∀ e ∈ d, e.1.asText?.isSome = true) : s.IsMapped := by
  have hpairs := pairs_of_opened h hd
  exact ⟨by rw [hpairs, h], by rwa [hpairs]⟩

@[simp] theorem pairs_set (s : Step) (key : String) (v : Value) :
    (s.set key v).pairs = Dict.put s.pairs (.text key) v :=
  pairs_of_opened rfl (s.isDistinct_pairs.put (.text key) v)

theorem params_set (s : Step) (key : String) (v : Value) :
    (s.set key v).params = .dict (s.set key v).pairs := by
  rw [pairs_set]
  rfl

theorem get?_set (s : Step) (key other : String) (v : Value) :
    (s.set key v).get? other = if key = other then some v else s.get? other := by
  have hput := Dict.get?_put s.pairs (.text key) v other
  rw [get?, pairs_set, hput]
  simp only [Value.asText?, Option.some.injEq, get?]

theorem IsMapped.set (h : s.IsMapped) (key : String) (v : Value) : (s.set key v).IsMapped := by
  refine ⟨by rw [params_set]; rfl, ?_⟩
  rw [pairs_set]
  have hkept := Dict.forall_mem_put (P := fun key => key.asText?.isSome = true) (Q := fun _ => True)
    (k := .text key) (v := v) (fun e he => ⟨h.keys e he, trivial⟩) rfl trivial
  exact fun e he => (hkept e he).1

end Step

/-! ## Options -/

namespace Assignment

/-- The text is the assignment: its name, a dot, its key, an equals sign and its value. The first
dot and the first equals sign are these. -/
structure IsWritten (a : Assignment) (text : String) : Prop where
  whole : text = a.name ++ "." ++ a.key ++ "=" ++ a.raw
  name_ne : a.name ≠ ""
  key_ne : a.key ≠ ""
  dot : '.' ∉ a.name.toList
  equals : '=' ∉ a.name.toList ++ '.' :: a.key.toList

/-- The assignment of a text with its value, if there are both. -/
def read? (text : String) : Option (Assignment × Value) :=
  (ofText? text).bind fun a => a.value.toOption.map fun v => (a, v)

/-- The value that a text gives to a key in the steps of a name. -/
def valueFor? (name key text : String) : Option Value :=
  match read? text with
  | some (a, v) => if a.name = name ∧ a.key = key then some v else none
  | none => none

/-- The values that texts give to a key in the steps of a name, in order. -/
def valuesFor (texts : List String) (name key : String) : List Value :=
  texts.filterMap (valueFor? name key)

/-- The value that the last of the texts gives. -/
def given? (texts : List String) (name key : String) : Option Value :=
  (valuesFor texts name key).getLast?

/-- The text is an assignment with a value, and there are steps of its name. -/
def Accepts (steps : List Step) (text : String) : Prop :=
  ∃ (a : Assignment) (v : Value), a.IsWritten text ∧ a.value = .ok v ∧
    ∃ s ∈ steps, s.name.asText? = some a.name

/-- The text is refused: it is no assignment, its value is too deep, or no step has its name. -/
inductive Refuses (steps : List Step) (text : String) : Fault → Prop
  | form (h : ∀ a : Assignment, ¬ a.IsWritten text) :
    Refuses steps text (.option (.paramForm (Text.Quoted.string text)))
  | depth {a : Assignment} {nest : Json.Nest} (ha : a.IsWritten text)
    (h : Json.read a.raw.toList = .error (.tooDeep nest)) :
      Refuses steps text (.json (.tooDeep nest))
  | name {a : Assignment} {v : Value} (ha : a.IsWritten text) (hv : a.value = .ok v)
    (h : ∀ s ∈ steps, s.name.asText? ≠ some a.name) :
    Refuses steps text (.option (.paramName (Text.Quoted.string a.name)))

end Assignment

namespace Step

/-- The step with what a text sets in it. -/
def setText (s : Step) (text : String) : Step :=
  match Assignment.read? text with
  | some (a, v) => if a.isFor s then s.set a.key v else s
  | none => s

/-- The step with what all texts set in it, one after the other. -/
def merged (texts : List String) (s : Step) : Step := texts.foldl setText s

end Step

namespace Assignment

variable {a : Assignment} {v : Value} {s : Step} {steps out : List Step} {text name key : String}
  {texts : List String} {fault : Fault}

/-- **An option is read exactly if it is written as one.** -/
theorem ofText?_eq_some_iff : ofText? text = some a ↔ a.IsWritten text := by
  constructor
  · intro h
    unfold ofText? at h
    split at h
    · cases h
    rename_i target raw hequals
    split at h
    · cases h
    rename_i name key hdot
    split at h
    · cases h
    rename_i hfilled
    cases h
    obtain ⟨htext, hbefore⟩ := Text.cut?_eq_some_iff.1 hequals
    obtain ⟨rfl, hname⟩ := Text.cut?_eq_some_iff.1 hdot
    simp only [Bool.or_eq_true, List.isEmpty_iff, not_or] at hfilled
    refine ⟨?_, ?_, ?_, ?_, ?_⟩
    · rw [← String.toList_inj, htext]
      simp
    · simpa using hfilled.1
    · simpa using hfilled.2
    · simpa using hname
    · simpa using hbefore
  · intro h
    have hsplit : text.toList = (a.name.toList ++ '.' :: a.key.toList) ++ '=' :: a.raw.toList := by
      rw [h.whole]
      simp
    have hname := h.name_ne
    have hkey := h.key_ne
    unfold ofText?
    rw [hsplit, Text.cut?_append h.equals]
    simp only [Text.cut?_append h.dot]
    rw [if_neg (by simp [hname, hkey])]
    simp

theorem ofText?_eq_none_iff : ofText? text = none ↔ ∀ a : Assignment, ¬ a.IsWritten text := by
  simp only [Option.eq_none_iff_forall_ne_some, ne_eq, ofText?_eq_some_iff]

theorem read?_eq_some_iff : read? text = some (a, v) ↔ a.IsWritten text ∧ a.value = .ok v := by
  rw [← ofText?_eq_some_iff]
  unfold read?
  cases hread : ofText? text with
  | none => simp
  | some b =>
    cases hvalue : b.value with
    | error fault =>
      refine iff_of_false (by simp [hvalue, Except.toOption]) ?_
      rintro ⟨⟨⟩, hv⟩
      rw [hvalue] at hv
      cases hv
    | ok w =>
      simp only [Option.bind_some, hvalue, Except.toOption, Option.map_some, Option.some.injEq,
        Prod.mk.injEq]
      constructor
      · rintro ⟨rfl, rfl⟩
        exact ⟨rfl, hvalue⟩
      · rintro ⟨rfl, hv⟩
        rw [hvalue] at hv
        exact ⟨rfl, Except.ok.inj hv⟩

theorem isFor_iff : a.isFor s = true ↔ s.name.asText? = some a.name := decide_eq_true_iff

/-- A value stays without one only if it is too deep. -/
theorem value_cases (a : Assignment) :
    (∃ v, a.value = .ok v) ∨
      ∃ nest, Json.read a.raw.toList = .error (.tooDeep nest) ∧
        a.value = .error (.json (.tooDeep nest)) := by
  unfold value
  split
  · exact Or.inl ⟨_, rfl⟩
  · rename_i nest hdeep
    exact Or.inr ⟨nest, hdeep, rfl⟩
  · exact Or.inl ⟨_, rfl⟩

/-! ## One option -/

theorem eq_set_of_setIn {s' : Step} (h : a.setIn v s = .ok s') : s' = s.set a.key v := by
  obtain ⟨pairs, hpairs, rfl⟩ := ok_of_map h
  simp only [Step.set, Step.pairs, hpairs]

theorem setIn_of_isMapped (h : s.IsMapped) (v : Value) : a.setIn v s = .ok (s.set a.key v) := by
  have hpairs : Dict.pairsOf (fun _ => []) s.params = .ok s.pairs := Dict.pairsOf_of_opened h.opened
  rw [setIn, hpairs]
  simp only [Except.map, Step.set, Dict.ofPairs_of_isDistinct s.isDistinct_pairs]

theorem setText_of_isWritten (ha : a.IsWritten text) (hv : a.value = .ok v) (s : Step) :
    s.setText text = if a.isFor s then s.set a.key v else s := by
  rw [Step.setText, read?_eq_some_iff.2 ⟨ha, hv⟩]

/-- A text that is set has been set in every step. -/
theorem eq_setText_of_apply (ha : a.IsWritten text) (h : a.apply steps = .ok out) :
    out = steps.map fun s => s.setText text := by
  obtain ⟨v, hv, h⟩ := ok_of_bind h
  split at h
  · refine eq_map_of_mapM h fun s s' hset => ?_
    rw [setText_of_isWritten ha hv]
    split at hset
    · rename_i hfor
      rw [if_pos hfor, eq_set_of_setIn hset]
    · rename_i hnot
      rw [if_neg hnot, Except.ok.inj hset]
  · cases h

/-- **A text that is accepted is set in every step.** -/
theorem apply_of_accepts (hsteps : ∀ s ∈ steps, s.IsMapped) (h : Accepts steps text) :
    (ofText text).bind (fun a => a.apply steps) = .ok (steps.map fun s => s.setText text) := by
  obtain ⟨a, v, ha, hv, s, hs, hname⟩ := h
  have hany : steps.any a.isFor = true := List.any_eq_true.2 ⟨s, hs, isFor_iff.2 hname⟩
  rw [ofText, ofText?_eq_some_iff.2 ha]
  show a.value.bind _ = _
  rw [hv]
  show (if steps.any a.isFor then _ else _) = _
  rw [if_pos hany]
  refine mapM_of_forall fun s hs => ?_
  rw [setText_of_isWritten ha hv]
  split
  · exact setIn_of_isMapped (hsteps s hs) v
  · rfl

theorem apply_of_refuses (h : Refuses steps text fault) :
    (ofText text).bind (fun a => a.apply steps) = .error fault := by
  cases h with
  | form h =>
    rw [ofText, ofText?_eq_none_iff.2 h]
    rfl
  | @depth a nest ha h =>
    have hvalue : a.value = .error (.json (.tooDeep nest)) := by
      unfold value
      rw [h]
    rw [ofText, ofText?_eq_some_iff.2 ha]
    show a.value.bind _ = _
    rw [hvalue]
    rfl
  | @name a v ha hv h =>
    have hany : ¬ steps.any a.isFor = true := by
      rw [List.any_eq_true]
      rintro ⟨s, hs, hfor⟩
      exact h s hs (isFor_iff.1 hfor)
    rw [ofText, ofText?_eq_some_iff.2 ha]
    show a.value.bind _ = _
    rw [hv]
    show (if steps.any a.isFor then _ else _) = _
    rw [if_neg hany]
    rfl

/-- **Each option is accepted or refused.** -/
theorem accepts_or_refuses (steps : List Step) (text : String) :
    Accepts steps text ∨ ∃ fault, Refuses steps text fault := by
  cases hread : ofText? text with
  | none => exact Or.inr ⟨_, .form (ofText?_eq_none_iff.1 hread)⟩
  | some a =>
    have ha := ofText?_eq_some_iff.1 hread
    rcases a.value_cases with ⟨v, hv⟩ | ⟨nest, hdeep, -⟩
    · by_cases hname : ∃ s ∈ steps, s.name.asText? = some a.name
      · exact Or.inl ⟨a, v, ha, hv, hname⟩
      · exact Or.inr ⟨_, .name ha hv fun s hs heq => hname ⟨s, hs, heq⟩⟩
    · exact Or.inr ⟨_, .depth ha hdeep⟩

/-! ## Steps under options -/

@[simp] theorem name_setText (s : Step) (text : String) : (s.setText text).name = s.name := by
  unfold Step.setText
  split
  · split
    · rfl
    · rfl
  · rfl

theorem isMapped_setText (h : s.IsMapped) (text : String) : (s.setText text).IsMapped := by
  unfold Step.setText
  split
  · split
    · exact h.set _ _
    · exact h
  · exact h

@[simp] theorem name_merged (texts : List String) (s : Step) : (s.merged texts).name = s.name := by
  induction texts generalizing s with
  | nil => rfl
  | cons text rest ih => exact (ih (s.setText text)).trans (name_setText s text)

theorem isMapped_merged (h : s.IsMapped) (texts : List String) : (s.merged texts).IsMapped := by
  induction texts generalizing s with
  | nil => exact h
  | cons text rest ih => exact ih (isMapped_setText h text)

/-- What is set in the steps changes no name, so as many texts are accepted as before. -/
theorem accepts_map_iff {f : Step → Step} (hf : ∀ s, (f s).name = s.name) :
    Accepts (steps.map f) text ↔ Accepts steps text := by
  have hnames : ∀ name, (∃ s ∈ steps.map f, s.name.asText? = some name) ↔
      ∃ s ∈ steps, s.name.asText? = some name := by
    simp [hf]
  simp only [Accepts, hnames]

theorem refuses_map_iff {f : Step → Step} (hf : ∀ s, (f s).name = s.name) :
    Refuses (steps.map f) text fault ↔ Refuses steps text fault := by
  constructor
  · intro h
    cases h with
    | form h => exact .form h
    | depth ha h => exact .depth ha h
    | name ha hv h =>
      exact .name ha hv fun s hs => by simpa [hf] using h (f s) (List.mem_map_of_mem hs)
  · intro h
    cases h with
    | form h => exact .form h
    | depth ha h => exact .depth ha h
    | name ha hv h =>
      exact .name ha hv (List.forall_mem_map.2 fun s hs => by simpa [hf] using h s hs)

/-! ## All options -/

/-- **What options make of the steps they make of each alone**, whatever its parameters are. -/
theorem eq_merged_of_applyAll (h : applyAll steps texts = .ok out) :
    out = steps.map (Step.merged texts) := by
  induction texts generalizing steps with
  | nil =>
    cases h
    exact (List.map_id _).symm
  | cons text rest ih =>
    rw [applyAll, List.foldlM_cons] at h
    obtain ⟨steps', hfirst, hrest⟩ := ok_of_bind h
    obtain ⟨a, ha, happly⟩ := ok_of_bind hfirst
    have hwritten : a.IsWritten text := by
      unfold ofText at ha
      split at ha
      · rename_i hread
        cases ha
        exact ofText?_eq_some_iff.1 hread
      · cases ha
    rw [ih hrest, eq_setText_of_apply hwritten happly, List.map_map]
    rfl

/-- Options are applied behind others to what these make of the steps. -/
theorem applyAll_append (hsteps : ∀ s ∈ steps, s.IsMapped) (h : ∀ text ∈ texts, Accepts steps text)
    (later : List String) :
    applyAll steps (texts ++ later) = applyAll (steps.map (Step.merged texts)) later := by
  induction texts generalizing steps with
  | nil =>
    have hid : steps.map (Step.merged []) = steps := List.map_id steps
    rw [hid]
    rfl
  | cons text rest ih =>
    obtain ⟨htext, hrest⟩ := List.forall_mem_cons.1 h
    have hmapped : ∀ s ∈ steps.map fun s => s.setText text, s.IsMapped :=
      List.forall_mem_map.2 fun s hs => isMapped_setText (hsteps s hs) text
    have hlater := ih hmapped fun t ht =>
      (accepts_map_iff fun s => name_setText s text).2 (hrest t ht)
    have hfirst := apply_of_accepts hsteps htext
    rw [List.map_map] at hlater
    rw [List.cons_append, applyAll, List.foldlM_cons, hfirst]
    exact hlater

theorem applyAll_of_accepts (hsteps : ∀ s ∈ steps, s.IsMapped)
    (h : ∀ text ∈ texts, Accepts steps text) :
    applyAll steps texts = .ok (steps.map (Step.merged texts)) := by
  rw [← List.append_nil texts, applyAll_append hsteps h]
  rw [List.append_nil]
  rfl

theorem applyAll_of_refuses (h : Refuses steps text fault) (later : List String) :
    applyAll steps (text :: later) = .error fault := by
  rw [applyAll, List.foldlM_cons, apply_of_refuses h]
  rfl

/-- **The first option that is refused decides**, whatever stands behind it. -/
theorem applyAll_eq_error_iff (hsteps : ∀ s ∈ steps, s.IsMapped) :
    applyAll steps texts = .error fault ↔
      ∃ earlier text later, texts = earlier ++ text :: later ∧
        (∀ t ∈ earlier, Accepts steps t) ∧ Refuses steps text fault := by
  constructor
  · intro h
    induction texts generalizing steps with
    | nil => cases h
    | cons text rest ih =>
      rcases accepts_or_refuses steps text with haccepts | ⟨other, hrefuses⟩
      · have hsplit := applyAll_append hsteps (List.forall_mem_singleton.2 haccepts) rest
        have hname : ∀ s, (Step.merged [text] s).name = s.name := name_merged [text]
        rw [List.singleton_append] at hsplit
        rw [hsplit] at h
        obtain ⟨earlier, last, later, rfl, hearlier, hlast⟩ :=
          ih (List.forall_mem_map.2 fun s hs => isMapped_merged (hsteps s hs) [text]) h
        refine ⟨text :: earlier, last, later, rfl, ?_, (refuses_map_iff hname).1 hlast⟩
        exact List.forall_mem_cons.2
          ⟨haccepts, fun t ht => (accepts_map_iff hname).1 (hearlier t ht)⟩
      · rw [applyAll_of_refuses hrefuses rest] at h
        cases h
        exact ⟨[], text, rest, rfl, nofun, hrefuses⟩
  · rintro ⟨earlier, text, later, rfl, hearlier, hrefuses⟩
    rw [applyAll_append hsteps hearlier]
    exact applyAll_of_refuses ((refuses_map_iff (name_merged earlier)).2 hrefuses) later

/-! ## Values of parameters -/

theorem get?_setText (hname : s.name.asText? = some name) (text key : String) :
    (s.setText text).get? key = (valueFor? name key text).or (s.get? key) := by
  unfold Step.setText valueFor?
  cases read? text with
  | none => rfl
  | some found =>
    obtain ⟨a, v⟩ := found
    by_cases hfor : a.name = name
    · simp only [isFor_iff.2 (hfor ▸ hname), if_true, Step.get?_set, hfor, true_and]
      split <;> rfl
    · have hnot : ¬ a.isFor s = true := by
        rw [isFor_iff, hname, Option.some.injEq]
        exact fun heq => hfor heq.symm
      simp [hnot, hfor]

/-- **The last option counts** that names the step and the key. -/
theorem get?_merged (hname : s.name.asText? = some name) (texts : List String) (key : String) :
    (s.merged texts).get? key = (given? texts name key).or (s.get? key) := by
  induction texts generalizing s with
  | nil => rfl
  | cons text rest ih =>
    have hrest := ih (s := s.setText text) (by rw [name_setText, hname])
    show ((s.setText text).merged rest).get? key = _
    rw [hrest, get?_setText hname]
    unfold given? valuesFor
    rw [List.filterMap_cons]
    cases valueFor? name key text with
    | none => rfl
    | some v =>
      rw [List.getLast?_cons]
      cases (List.filterMap (valueFor? name key) rest).getLast? <;> rfl

/-- A step that no option is for is as it was. -/
theorem merged_of_forall
    (h : ∀ text ∈ texts, ∀ a : Assignment, a.IsWritten text → s.name.asText? ≠ some a.name) :
    s.merged texts = s := by
  induction texts with
  | nil => rfl
  | cons text rest ih =>
    obtain ⟨htext, hrest⟩ := List.forall_mem_cons.1 h
    have hfirst : s.setText text = s := by
      unfold Step.setText
      split
      · rename_i a v hread
        exact if_neg fun hfor => htext a (read?_eq_some_iff.1 hread).1 (isFor_iff.1 hfor)
      · rfl
    show (s.setText text).merged rest = s
    rw [hfirst, ih hrest]

/-! ## The options of a job -/

/-- What becomes of a step under options. It is a matter of the step and the options alone: another
step with the very same parameters keeps them, unless an option is for it as well. -/
structure Merges (texts : List String) (s s' : Step) : Prop where
  name : s'.name = s.name
  isMapped : s'.IsMapped
  untouched : (∀ text ∈ texts, ∀ a : Assignment, a.IsWritten text → s.name.asText? ≠ some a.name) →
    s' = s
  get? : ∀ name, s.name.asText? = some name →
    ∀ key, s'.get? key = (given? texts name key).or (s.get? key)

theorem merges_merged (h : s.IsMapped) (texts : List String) : Merges texts s (s.merged texts) where
  name := name_merged texts s
  isMapped := isMapped_merged h texts
  untouched := merged_of_forall
  get? _ hname key := get?_merged hname texts key

/-- Options may change places that are for other steps or other keys. -/
theorem get?_merged_congr {texts' : List String}
    (h : ∀ name key, valuesFor texts' name key = valuesFor texts name key) (s : Step)
    (key : String) : (s.merged texts').get? key = (s.merged texts).get? key := by
  cases hname : s.name.asText? with
  | some name => rw [get?_merged hname, get?_merged hname, given?, given?, h]
  | none =>
    have hnone : ∀ texts, s.merged texts = s := fun texts =>
      merged_of_forall fun _ _ a _ heq => by
        rw [hname] at heq
        cases heq
    rw [hnone, hnone]

/-- **Merging options into steps** whose parameters are dictionaries of texts. An option is read
exactly if it is written as one; the first option that is refused decides; and options that are all
accepted are taken up by each step alone, the last one for every key. They may change places that
are for other steps or keys.

A value that is too deep is refused as such, and not for the form of the option or for its name. -/
theorem applyAll_merges (hsteps : ∀ s ∈ steps, s.IsMapped) (texts : List String) :
    (∀ text a, ofText? text = some a ↔ a.IsWritten text) ∧
    (∀ fault, applyAll steps texts = .error fault ↔
      ∃ earlier text later, texts = earlier ++ text :: later ∧
        (∀ t ∈ earlier, Accepts steps t) ∧ Refuses steps text fault) ∧
    ((∀ text ∈ texts, Accepts steps text) →
      applyAll steps texts = .ok (steps.map (Step.merged texts))) ∧
    (∀ s ∈ steps, Merges texts s (s.merged texts)) ∧
    ∀ texts', texts'.Perm texts →
      (∀ name key, valuesFor texts' name key = valuesFor texts name key) →
      (∀ text ∈ texts, Accepts steps text) →
        applyAll steps texts' = .ok (steps.map (Step.merged texts')) ∧
          ∀ s ∈ steps, ∀ key, (s.merged texts').get? key = (s.merged texts).get? key := by
  refine ⟨fun text a => ofText?_eq_some_iff, fun fault => applyAll_eq_error_iff hsteps,
    applyAll_of_accepts hsteps, fun s hs => merges_merged (hsteps s hs) texts, ?_⟩
  intro texts' hperm hvalues haccepts
  have haccepts' : ∀ text ∈ texts', Accepts steps text := fun text htext =>
    haccepts text (hperm.mem_iff.1 htext)
  exact ⟨applyAll_of_accepts hsteps haccepts', fun s _ => get?_merged_congr hvalues s⟩

/-- Two steps of one name around another one, all with the same parameters. -/
def sampleSteps : List Step :=
  [⟨.text "shift_left", .dict [(.text "count", .int 1)]⟩,
    ⟨.text "copy", .dict [(.text "count", .int 1)]⟩,
    ⟨.text "shift_left", .dict [(.text "count", .int 1)]⟩]

theorem isMapped_sample : ∀ s ∈ sampleSteps, s.IsMapped := by
  have hone : ∀ name, (Step.mk name (.dict [(.text "count", .int 1)])).IsMapped := fun name =>
    Step.isMapped_of_opened rfl (List.pairwise_singleton _ _) (List.forall_mem_singleton.2 rfl)
  simp only [sampleSteps, List.forall_mem_cons, List.not_mem_nil, false_implies,
    implies_true, and_true]
  exact ⟨hone _, hone _, hone _⟩

/-- The later of two options counts, in both steps of the name and in no other. -/
theorem applyAll_merges_sample :
    applyAll sampleSteps ["shift_left.count=2", "shift_left.count=0x3=."] =
      .ok [⟨.text "shift_left", .dict [(.text "count", .text "0x3=.")]⟩,
        ⟨.text "copy", .dict [(.text "count", .int 1)]⟩,
        ⟨.text "shift_left", .dict [(.text "count", .text "0x3=.")]⟩] := by
  have hearlier : (Assignment.mk "shift_left" "count" "2").IsWritten "shift_left.count=2" :=
    ofText?_eq_some_iff.1 rfl
  have hlater : (Assignment.mk "shift_left" "count" "0x3=.").IsWritten "shift_left.count=0x3=." :=
    ofText?_eq_some_iff.1 rfl
  have htwo : (Assignment.mk "shift_left" "count" "2").value = .ok (.int 2) := rfl
  have hdigits : (Assignment.mk "shift_left" "count" "0x3=.").value = .ok (.text "0x3=.") := rfl
  have hstep : ∃ s ∈ sampleSteps, s.name.asText? = some "shift_left" := ⟨_, List.mem_cons_self, rfl⟩
  obtain ⟨-, -, hmerged, -⟩ :=
    applyAll_merges isMapped_sample ["shift_left.count=2", "shift_left.count=0x3=."]
  rw [hmerged (List.forall_mem_cons.2 ⟨⟨_, _, hearlier, htwo, hstep⟩,
    List.forall_mem_singleton.2 ⟨_, _, hlater, hdigits, hstep⟩⟩)]
  simp only [sampleSteps, List.map, Step.merged, List.foldl, setText_of_isWritten hearlier htwo,
    setText_of_isWritten hlater hdigits]
  cbv

/-- An option with more opened lists in its value than may stand in one another. -/
def deepAssignment : Assignment := ⟨"a", "b", String.ofList (List.replicate 5000 '[')⟩

/-- The option as it is written. -/
def deepText : String := "a" ++ "." ++ "b" ++ "=" ++ deepAssignment.raw

/-- **An option may be written as one, and name a step, and still be refused**, with a fault that
has nothing to do with options. -/
theorem applyAll_deep :
    deepAssignment.IsWritten deepText ∧
      applyAll [⟨.text "a", .dict []⟩] [deepText] = .error (.json (.tooDeep .array)) := by
  have hwritten : deepAssignment.IsWritten deepText :=
    ⟨rfl, by decide, by decide, by decide, by decide⟩
  refine ⟨hwritten, ?_⟩
  have hread : Json.read deepAssignment.raw.toList = .error (.tooDeep .array) := by
    have hbrackets := Json.read_brackets (n := 5000) (by decide)
    rwa [deepAssignment, String.toList_ofList]
  exact applyAll_of_refuses (.depth hwritten hread) []

end Assignment

end Octets
