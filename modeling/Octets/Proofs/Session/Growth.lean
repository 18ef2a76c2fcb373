import Octets.Proofs.Session.World

/-!
# How a session grows

A run of a session is a list of deeds (`Deed`): the calls, and between them the new buffers and
generators that the caller makes. No deed takes a transform away or changes it, as long as none is
forced past the checks; a name comes to stand for another one only if that is made under it
(`World.Grows`).

* `Instance.Alike` — the same object with the same fields. Only a transform of a plugin that keeps
  its values to itself may differ otherwise.
* `grows_act` — what one deed leaves; the cases are the calls.
* `grows_after` — what a run leaves, by induction on the deeds.
* `journal_after` — the journal of steps is empty between any two deeds.
-/

namespace Octets

open Session

/-! ## Alike transforms -/

namespace Instance

/-- The later transform is the earlier one as far as a caller may compare them. One that is
comparable by its fields is unchanged. -/
structure Alike (i j : Instance) : Prop where
  serial : j.serial = i.serial
  comparable : j.transform.comparable = i.transform.comparable
  label : j.transform.label = i.transform.label
  fields : j.transform.fields = i.transform.fields
  eq_of_comparable : i.transform.comparable = true → j = i

/-- A transform as the constructors give it: if it is comparable by its fields, none has been
overwritten. -/
def IsPristine (i : Instance) : Prop :=
  i.transform.comparable = true → i.label = none ∧ ∃ t, i.transform = .sound t

variable {i j k l : Instance}

theorem Alike.refl (i : Instance) : i.Alike i :=
  ⟨rfl, rfl, rfl, rfl, fun _ => rfl⟩

theorem Alike.trans (h : i.Alike j) (h' : j.Alike k) : i.Alike k where
  serial := h'.serial.trans h.serial
  comparable := h'.comparable.trans h.comparable
  label := h'.label.trans h.label
  fields := h'.fields.trans h.fields
  eq_of_comparable := by
    intro hi
    rw [h'.eq_of_comparable (h.comparable.trans hi), h.eq_of_comparable hi]

theorem Alike.isPristine (h : i.Alike j) (hi : i.IsPristine) : j.IsPristine := by
  intro hj
  have hcomparable := h.comparable.symm.trans hj
  rw [h.eq_of_comparable hcomparable]
  exact hi hcomparable

/-- Equality is that of the number, the label and the fields. -/
theorem Alike.same_eq (hij : i.Alike j) (hkl : k.Alike l) :
    j.transform.same l.transform = i.transform.same k.transform := by
  simp only [Made.same, hij.comparable, hij.label, hij.fields, hkl.label, hkl.fields]

/-- What is not comparable by its fields is a plugin's that hides them. -/
theorem exists_added_of_not_comparable {t : Made} (h : t.comparable = false) :
    ∃ p values, t = .sound (.added p values) ∧ p.isOpen = false := by
  rcases t with t | l
  · cases t with
    | added p values => exact ⟨p, values, rfl, h⟩
    | _ => cases h
  · cases h

/-- An assignment that is let through changes nothing that can be compared. -/
theorem alike_overwrite (h : i.transform.comparable = false) (field : String) (v : Value) :
    i.Alike (i.overwrite field v) := by
  obtain ⟨p, values, htransform, hopen⟩ := exists_added_of_not_comparable h
  have hfree : ∀ Q : Prop, i.transform.comparable = true → Q := by
    intro Q hi
    rw [h] at hi
    cases hi
  unfold overwrite
  split
  · exact ⟨rfl, rfl, rfl, rfl, hfree _⟩
  · refine ⟨rfl, ?_, ?_, ?_, hfree _⟩
    · rw [htransform]
      rfl
    · rw [htransform]
      rfl
    · simp [htransform, Made.force, Made.fields, Transform.fields, hopen]

end Instance

/-! ## Growing worlds -/

namespace World

/-- What a later world has of an earlier one: every name of a transform, and behind each name the
same transform, or one made since if it is among the names `made`. Between the calls the journal of
steps is empty. -/
structure Grows (w w' : World) (made : String → Prop) : Prop where
  serial_le : w.serial ≤ w'.serial
  named : ∀ id i, find? w.instances id = some i → ∃ j, find? w'.instances id = some j
  origin : ∀ id j, find? w'.instances id = some j →
    (∃ i, find? w.instances id = some i ∧ i.Alike j) ∨
      made id ∧ w.serial ≤ j.serial ∧ j.serial < w'.serial ∧ j.IsPristine
  journal : w.store.journal = [] → w'.store.journal = []

variable {w w' w'' : World} {made : String → Prop}

theorem Grows.trans (h : w.Grows w' made) (h' : w'.Grows w'' made) : w.Grows w'' made where
  serial_le := Nat.le_trans h.serial_le h'.serial_le
  named := by
    intro id i hi
    obtain ⟨j, hj⟩ := h.named id i hi
    exact h'.named id j hj
  origin := by
    intro id k hk
    rcases h'.origin id k hk with ⟨j, hj, hjk⟩ | ⟨hmade, hle, hlt, hpristine⟩
    · rcases h.origin id j hj with ⟨i, hi, hij⟩ | ⟨hmade, hle, hlt, hpristine⟩
      · exact Or.inl ⟨i, hi, hij.trans hjk⟩
      · have hlt' := Nat.lt_of_lt_of_le hlt h'.serial_le
        exact Or.inr ⟨hmade, hjk.serial ▸ hle, hjk.serial ▸ hlt', hjk.isPristine hpristine⟩
    · exact Or.inr ⟨hmade, Nat.le_trans h.serial_le hle, hlt, hpristine⟩
  journal := fun hw => h'.journal (h.journal hw)

theorem grows_of_instances (hinstances : w'.instances = w.instances)
    (hserial : w.serial ≤ w'.serial) (hjournal : w.store.journal = [] → w'.store.journal = []) :
    w.Grows w' made where
  serial_le := hserial
  named := by
    intro id i hi
    exact ⟨i, by rwa [hinstances]⟩
  origin := by
    intro id j hj
    rw [hinstances] at hj
    exact Or.inl ⟨j, hj, .refl j⟩
  journal := hjournal

/-- Neither the transforms nor the store take part in the change. -/
theorem grows_of_eq (hinstances : w'.instances = w.instances) (hserial : w'.serial = w.serial)
    (hstore : w'.store = w.store) : w.Grows w' made :=
  grows_of_instances hinstances (Nat.le_of_eq hserial.symm) fun hw => by rwa [hstore]

theorem Grows.refl (w : World) (made : String → Prop) : w.Grows w made :=
  grows_of_instances rfl (Nat.le_refl _) id

/-- A name may be bound to a transform that is new, or like the one it stood for. -/
theorem grows_bind {id : String} {j : Instance} {serial : Nat} (hserial : w.serial ≤ serial)
    (hj : (∃ i, find? w.instances id = some i ∧ i.Alike j) ∨
      made id ∧ w.serial ≤ j.serial ∧ j.serial < serial ∧ j.IsPristine) :
    w.Grows { w with serial := serial, instances := bind w.instances id j } made where
  serial_le := hserial
  named := by
    intro other i hi
    by_cases hother : other = id
    · exact ⟨j, by rw [hother, find?_bind]⟩
    · exact ⟨i, by rwa [find?_bind_of_ne j hother]⟩
  origin := by
    intro other k hk
    by_cases hother : other = id
    · rw [hother, find?_bind] at hk
      cases hk
      rwa [hother]
    · rw [find?_bind_of_ne j hother] at hk
      exact Or.inl ⟨k, hk, .refl k⟩
  journal := fun hw => hw

/-- What a name stood for, it stands for still, unless for something made under it since. -/
theorem Grows.kept (h : w.Grows w' made) {id : String} {i : Instance}
    (hi : find? w.instances id = some i) :
    ∃ j, find? w'.instances id = some j ∧ (i.Alike j ∨ made id ∧ w.serial ≤ j.serial) := by
  obtain ⟨j, hj⟩ := h.named id i hi
  refine ⟨j, hj, ?_⟩
  rcases h.origin id j hj with ⟨k, hk, hkj⟩ | ⟨hmade, hle, -⟩
  · rw [hi, Option.some.injEq] at hk
    exact Or.inl (hk ▸ hkj)
  · exact Or.inr ⟨hmade, hle⟩

/-! ## Operations -/

section

variable {made : String → Prop} (w : World) (id : String)

theorem grows_engine : w.Grows (w.engine id).2 made :=
  grows_of_instances (w.instances_engine id) (w.serial_le_serial_engine id) (by simp)

theorem grows_emit (records : List Log.Record) : w.Grows (w.emit records) made :=
  grows_of_eq rfl rfl rfl

theorem grows_run {α : Type} (action : Action α) : w.Grows (w.run action).2 made :=
  grows_of_instances rfl (Nat.le_refl _) fun _ => rfl

theorem grows_make (hid : made id) (action : Action Transform) :
    w.Grows (w.make id action).2 made := by
  have hgrows : w.Grows (w.run action).2 made := w.grows_run action
  unfold make
  rcases hrun : w.run action with ⟨fault | t, w'⟩ <;> rw [hrun] at hgrows
  · exact hgrows
  · have hnew : (⟨w'.serial, .sound t, none⟩ : Instance).IsPristine := fun _ => ⟨rfl, t, rfl⟩
    exact hgrows.trans (grows_bind (Nat.le_succ _)
      (Or.inr ⟨hid, Nat.le_refl _, Nat.lt_succ_self _, hnew⟩))

theorem grows_change (naming : Naming) (action : Value → Action Nat) :
    w.Grows (w.change id naming action).2 made := by
  unfold change
  cases find? w.buffers id with
  | none => exact .refl w made
  | some v =>
    have hgrows : w.Grows (w.run (action v)).2 made := w.grows_run (action v)
    dsimp only
    rcases hrun : w.run (action v) with ⟨fault | ref, w'⟩ <;> rw [hrun] at hgrows
    · exact hgrows
    · cases naming with
      | none => exact hgrows
      | some name => exact hgrows.trans (grows_of_instances rfl (Nat.le_refl _) fun hw => hw)

theorem grows_reply {α : Type} (action : Action α) (answer : α → Reply) :
    w.Grows (w.reply action answer).2 made := by
  have hgrows : w.Grows (w.run action).2 made := w.grows_run action
  unfold reply
  rcases hrun : w.run action with ⟨fault | a, w'⟩ <;> rw [hrun] at hgrows <;> exact hgrows

theorem grows_poke (index : Nat) (byte : UInt8) : w.Grows (w.poke id index byte).2 made := by
  unfold poke
  split
  · exact .refl w made
  · dsimp only
    split
    · exact grows_of_instances rfl (Nat.le_refl _) fun h => h
    · exact .refl w made
  · exact .refl w made

theorem grows_withInstance {answer : Instance → Outcome × World}
    (h : ∀ i, find? w.instances id = some i → w.Grows (answer i).2 made) :
    w.Grows (w.withInstance id answer).2 made := by
  unfold withInstance
  split
  · exact .refl w made
  · rename_i i hi
    exact h i hi

theorem grows_register (name : String) (family : Family) (defaults : Value) :
    w.Grows (w.perform (.register id name family defaults)).2 made := by
  refine (w.grows_engine id).trans ?_
  unfold perform
  dsimp only
  split
  · exact .refl _ made
  · exact grows_of_eq rfl rfl rfl

theorem grows_configure (level path : Value) : w.Grows (w.configure id level path).2 made := by
  refine (w.grows_engine id).trans ?_
  unfold configure
  dsimp only
  split <;> exact grows_of_eq rfl rfl rfl

theorem grows_log (level : Int) (message : String) (args : List Value) (exception : Option String) :
    w.Grows (w.log level id message args exception).2 made := by
  unfold log
  split
  · exact w.grows_emit _
  · exact .refl w made

theorem grows_assign (field : String) (v : Value) :
    w.Grows (w.perform (.assign id field v)).2 made := by
  refine w.grows_withInstance id fun i hi => ?_
  split
  · exact .refl w made
  · rename_i hfree
    refine w.grows_withInstance id fun j hj => ?_
    rw [hi, Option.some.injEq] at hj
    rw [Bool.not_eq_true, hj] at hfree
    exact grows_bind (Nat.le_refl _) (Or.inl ⟨j, hj ▸ hi, Instance.alike_overwrite hfree field v⟩)

end

end World

/-! ## Runs -/

/-- What a caller does in a session: makes a new buffer or generator, or makes a call. -/
inductive Deed where
  | allocate (bs : Bytes)
  | supply (g : Random.Generator)
  | call (c : Call)

/-- The deed gives a field of a transform another value past its checks. -/
def Deed.IsForced (d : Deed) : Prop := ∃ id field v, d = .call (.force id field v)

/-- The deed makes a transform under the name. -/
def Deed.Makes (d : Deed) (id : String) : Prop :=
  match d with
  | .call (.build name ..) => name = id
  | .call (.fromParams name ..) => name = id
  | .call (.construct name ..) => name = id
  | _ => False

namespace World

/-- The world behind a deed. -/
def act (w : World) : Deed → World
  | .allocate bs => { w with store := (w.store.add bs).2 }
  | .supply g => { w with store := (w.store.addGenerator g).2 }
  | .call c => (w.perform c).2

/-- The world behind a run. -/
def after (w : World) (deeds : List Deed) : World := deeds.foldl act w

/-- **A deed that is not forced leaves every transform.** -/
theorem grows_act {made : String → Prop} (w : World) {d : Deed} (h : ¬ d.IsForced)
    (hmade : ∀ id, d.Makes id → made id) : w.Grows (w.act d) made := by
  rcases d with bs | g | c
  · exact grows_of_instances rfl (Nat.le_refl _) fun hj => hj
  · exact grows_of_instances rfl (Nat.le_refl _) fun hj => hj
  cases c with
  | buffer id v => exact grows_of_eq rfl rfl rfl
  | generator id v => exact grows_of_eq rfl rfl rfl
  | poke buffer index byte => exact w.grows_poke buffer index byte
  | build id engine name params =>
    exact (w.grows_engine engine).trans (grows_make _ id (hmade id rfl) _)
  | fromParams id family params => exact w.grows_make id (hmade id rfl) _
  | construct id family args => exact w.grows_make id (hmade id rfl) _
  | inspect id => exact w.grows_withInstance id fun i _ => .refl w made
  | transform id buffer inPlace naming =>
    exact w.grows_withInstance id fun i _ => w.grows_change buffer naming _
  | apply engine buffer name params inPlace naming =>
    exact (w.grows_engine engine).trans (grows_change _ buffer naming _)
  | pipeline engine buffer transforms inPlace naming =>
    exact (w.grows_engine engine).trans (grows_change _ buffer naming _)
  | assign id field v => exact w.grows_assign id field v
  | force id field v => exact absurd ⟨id, field, v, rfl⟩ h
  | same a b =>
    exact w.grows_withInstance a fun i _ => w.grows_withInstance b fun j _ => .refl w made
  | register engine name family defaults => exact w.grows_register engine name family defaults
  | names engine => exact w.grows_engine engine
  | describe engine name params => exact (w.grows_engine engine).trans (grows_reply _ _ _)
  | discover engine extensions => exact grows_of_instances rfl (Nat.le_succ _) fun hj => hj
  | configure engine level path => exact w.grows_configure engine level path
  | close engine => exact (w.grows_engine engine).trans (grows_of_eq rfl rfl rfl)
  | log level logger message args exception => exact w.grows_log logger level message args exception
  | readLog path => exact .refl w made

/-- **A run without force leaves every transform.** -/
theorem grows_after {made : String → Prop} {deeds : List Deed} (w : World)
    (h : ∀ d ∈ deeds, ¬ d.IsForced) (hmade : ∀ d ∈ deeds, ∀ id, d.Makes id → made id) :
    w.Grows (w.after deeds) made := by
  induction deeds generalizing w with
  | nil => exact .refl w made
  | cons d rest ih =>
    obtain ⟨hd, hrest⟩ := List.forall_mem_cons.1 h
    obtain ⟨hmaked, hmaderest⟩ := List.forall_mem_cons.1 hmade
    exact (w.grows_act hd hmaked).trans (ih (w.act d) hrest hmaderest)

theorem journal_act {w : World} (hw : w.store.journal = []) (d : Deed) :
    (w.act d).store.journal = [] := by
  by_cases hforced : d.IsForced
  · obtain ⟨id, field, v, rfl⟩ := hforced
    simp only [act, perform, overwrite, withInstance]
    split <;> exact hw
  · have hgrows : w.Grows (w.act d) fun _ => True := w.grows_act hforced fun _ _ => trivial
    exact hgrows.journal hw

/-- **Between the deeds of a run the journal is empty**: its steps have become log records. -/
theorem journal_after {w : World} (hw : w.store.journal = []) (deeds : List Deed) :
    (w.after deeds).store.journal = [] := by
  induction deeds generalizing w with
  | nil => exact hw
  | cons d rest ih => exact ih (journal_act hw d)

end World

end Octets
