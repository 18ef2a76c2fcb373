import Mathlib.Data.List.Induction
import Mathlib.Data.List.Nodup
import Octets.Proofs.Registry.Soundness

/-!
# What a history of registrations leaves

A registry is made by registering one entry after another. It lists every name once, where it first
came, and holds the latest entry of each (`Registry.Reflects`).

* `names_register`, `find?_register` — one registration.
* `names_replay`, `find?_replay` — a history, by induction from its end.
* `extend_eq_replay` — extensions that are families are registered, the others are left out.
* `reflects_replay` — names, entries and building together.
-/

namespace Octets

namespace Registry

/-! ## One registration -/

section

variable (r : Registry) (entry : Registration)

/-- Registers an entry. -/
def add (r : Registry) (entry : Registration) : Registry :=
  r.register entry.name entry.family entry.defaults

/-- A name that is there keeps its place, a new one comes last. -/
theorem names_add :
    (r.add entry).names = if entry.name ∈ r.names then r.names else r.names ++ [entry.name] := by
  unfold add
  induction r with
  | nil => rfl
  | cons first rest ih =>
    rw [register]
    by_cases h : first.name = entry.name
    · rw [if_pos h, if_pos (by simp [names, h])]
      simp [names, h]
    · rw [if_neg h]
      have hmem : entry.name ∈ names (first :: rest) ↔ entry.name ∈ names rest := by
        simp [names, Ne.symm h]
      show first.name :: names (register rest entry.name entry.family entry.defaults) = _
      rw [ih, if_congr hmem rfl rfl]
      split <;> rfl

theorem find?_add (name : String) :
    (r.add entry).find? name = if entry.name = name then some entry else r.find? name := by
  obtain ⟨new, family, defaults⟩ := entry
  show (r.register new family defaults).find? name = if new = name then _ else _
  induction r with
  | nil => by_cases h : new = name <;> simp [register, find?, h]
  | cons first rest ih =>
    rw [register]
    by_cases hfirst : first.name = new
    · by_cases h : new = name <;> simp [find?, hfirst, h]
    · rw [if_neg hfirst]
      by_cases hname : first.name = name
      · have hne : new ≠ name := fun heq => hfirst (hname.trans heq.symm)
        simp [find?, hname, hne]
      · have hskip : ∀ l : Registry, find? (first :: l) name = find? l name := by
          intro l
          simp [find?, hname]
        rw [hskip, hskip, ih]

theorem nodup_names_add (h : r.names.Nodup) : (r.add entry).names.Nodup := by
  rw [names_add]
  split
  · exact h
  · rename_i hnew
    rw [List.nodup_append]
    refine ⟨h, List.nodup_singleton _, ?_⟩
    rintro a ha _ hb rfl
    rw [List.mem_singleton.1 hb] at ha
    exact hnew ha

end

/-! ## Histories -/

/-- Registers the entries of a history, the earliest first. -/
def replay (r : Registry) (history : List Registration) : Registry := history.foldl add r

/-- The latest entry of a name in a history. -/
def latest? (history : List Registration) (name : String) : Option Registration :=
  history.reverse.find? fun e => e.name = name

theorem replay_append (r : Registry) (earlier later : List Registration) :
    r.replay (earlier ++ later) = (r.replay earlier).replay later :=
  List.foldl_append

theorem latest?_concat (history : List Registration) (entry : Registration) (name : String) :
    latest? (history ++ [entry]) name = if entry.name = name then some entry
      else latest? history name := by
  by_cases h : entry.name = name <;> simp [latest?, h]

/-- **The names are listed where they first came.** -/
theorem names_replay (history : List Registration) :
    (replay [] history).names = (history.map (·.name)).eraseDups := by
  induction history using List.reverseRecOn with
  | nil => rfl
  | append_singleton history entry ih =>
    have hlast : replay [] (history ++ [entry]) = (replay [] history).add entry :=
      replay_append _ _ _
    rw [hlast, names_add, ih, List.map_append, List.map_singleton, List.eraseDups_append]
    by_cases h : entry.name ∈ history.map (·.name)
    · have hnone : [entry.name].removeAll (history.map (·.name)) = [] := by
        simpa [List.removeAll] using h
      rw [if_pos (List.mem_eraseDups.2 h), hnone, List.eraseDups_nil, List.append_nil]
    · have hone : [entry.name].removeAll (history.map (·.name)) = [entry.name] := by
        simpa [List.removeAll] using h
      rw [if_neg fun hmem => h (List.mem_eraseDups.1 hmem), hone]
      rfl

theorem nodup_names_replay (history : List Registration) : (replay [] history).names.Nodup := by
  induction history using List.reverseRecOn with
  | nil => exact List.nodup_nil
  | append_singleton history entry ih =>
    rw [replay_append]
    exact nodup_names_add _ entry ih

/-- **A name stands for its latest entry.** -/
theorem find?_replay (history : List Registration) (name : String) :
    (replay [] history).find? name = latest? history name := by
  induction history using List.reverseRecOn with
  | nil => rfl
  | append_singleton history entry ih =>
    rw [replay_append, latest?_concat, ← ih]
    exact find?_add _ entry name

/-! ## Extensions -/

end Registry

/-- The registration of an extension that is a family. It has no defaults. -/
def Extension.registration? (e : Extension) : Option Registration :=
  e.family.map fun family => ⟨e.name, family, []⟩

namespace Registry

/-- **Extensions that are no families are left out.** -/
theorem extend_eq_replay (r : Registry) (extensions : List Extension) :
    r.extend extensions = r.replay (extensions.filterMap Extension.registration?) := by
  induction extensions generalizing r with
  | nil => rfl
  | cons e rest ih =>
    obtain ⟨name, family⟩ := e
    cases family with
    | none => exact ih r
    | some family => exact ih (r.register name family [])

/-- The names of this library are registered in their order. -/
theorem replay_builtin : replay [] builtin = builtin := rfl

/-! ## All together -/

/-- The registry is what a history of registrations has made it. -/
structure Reflects (r : Registry) (history : List Registration) : Prop where
  nodup : r.names.Nodup
  names : r.names = (history.map (·.name)).eraseDups
  /-- A name resolves to the family and the defaults of its latest registration. -/
  lookup : ∀ contents name, r.lookup contents (.text name) =
    match latest? history name with
    | some entry => .ok entry
    | none => .error (.unknownTransform (.text name) name)
  /-- A transform is made from the defaults, overridden key by key. -/
  build : ∀ name entry, latest? history name = some entry → ∀ (params : Value) (given : Dict),
    (params = .dict given ∨ params = .null ∧ given = []) → given.IsDistinct →
      ∃ merged, (∀ s, (r.build (.text name) params).outcome s
        = (entry.family.ofParams merged).outcome s) ∧
        ∀ key, Dict.get? merged key = (Dict.get? given key).or (Dict.get? entry.defaults key)
  /-- Building writes none of the buffers that the parameters or the defaults may refer to. -/
  writesNothing : ∀ name params s, ((r.build name params).outcome s).2.buffers = s.buffers

theorem reflects_replay (history : List Registration) : (replay [] history).Reflects history where
  nodup := nodup_names_replay history
  names := names_replay history
  lookup := by
    intro contents name
    cases hentry : latest? history name with
    | none => rw [lookup_text, find?_replay, hentry]
    | some entry => rw [lookup_text, find?_replay, hentry]
  build := by
    intro name entry hentry params given hparams hdistinct
    refine ⟨Dict.putAll entry.defaults given, fun s => ?_, Dict.get?_putAll hdistinct _⟩
    have hdict : (replay [] history).build (.text name) params
        = (replay [] history).build (.text name) (.dict given) := by
      rcases hparams with rfl | ⟨rfl, rfl⟩ <;> rfl
    rw [hdict, outcome_build, find?_replay, hentry]
  writesNothing name params s := ((replay [] history).extends_build name params s).buffers

end Registry

end Octets
