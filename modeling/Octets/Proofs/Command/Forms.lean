import Octets.Command.Program

/-!
# What a command line may mention

A command line mentions only options of the form it is read by. So what an ending depends on can be
told from the form: the command `run` shows another text than that of its work just if help is asked
for.

* `isOf_cluster`, `mem_options_of_read` — options that are read are options of the form.
* `instead?_run_eq_none` — without a call for help, `run` does its work.
* `perform_run` — the program hands the arguments behind `run` to that command.
* `runs_perform` — the command line is misused, or the command does what it gives.
-/

namespace Octets

/-- A result that is mapped to a good one is good. -/
theorem ok_of_map {ε α β : Type} {x : Except ε α} {f : α → β} {b : β} (h : x.map f = .ok b) :
    ∃ a, x = .ok a ∧ f a = b := by
  cases x with
  | error e => cases h
  | ok a => exact ⟨a, rfl, Except.ok.inj h⟩

namespace Command

namespace Form

/-- All that an argument gives is from the form. -/
structure IsOf (form : Form) (c : Cluster) : Prop where
  options : ∀ m ∈ c.options, m.1 ∈ form.options
  last : ∀ o name, c.open? = some (o, name) → o ∈ form.options

variable {form : Form} {c : Cluster}

theorem isOf_one {o : Opt} (h : o ∈ form.options) (v : Option String) :
    form.IsOf ⟨[(o, v)], none⟩ :=
  ⟨by simpa using h, by simp⟩

theorem isOf_open {o : Opt} (h : o ∈ form.options) (name : String) :
    form.IsOf ⟨[], some (o, name)⟩ :=
  ⟨by simp, by
    rintro _ _ ⟨⟩
    exact h⟩

theorem isOf_letters {cs : List Char} (h : form.letters cs = .ok c) : form.IsOf c := by
  induction cs generalizing c with
  | nil =>
    cases h
    exact ⟨by simp, by simp⟩
  | cons letter rest ih =>
    unfold letters at h
    dsimp only at h
    split at h
    · cases h
    · rename_i o ho
      have hmem : o ∈ form.options := List.mem_of_find?_eq_some ho
      split at h
      · split at h
        · cases h
          exact isOf_open hmem _
        · cases h
          exact isOf_one hmem _
      · obtain ⟨more, hmore, rfl⟩ := ok_of_map h
        have hrest := ih hmore
        exact ⟨List.forall_mem_cons.2 ⟨hmem, hrest.options⟩, hrest.last⟩

theorem isOf_long {name : String} {value : Option String}
    (h : form.long name value = some (.ok c)) : form.IsOf c := by
  unfold long at h
  cases ho : form.long? name with
  | none => simp [ho] at h
  | some o =>
    have hmem : o ∈ form.options := List.mem_of_find?_eq_some ho
    simp only [ho, Option.map_some, Option.some.injEq] at h
    split at h <;> cases h
    · exact isOf_one hmem _
    · exact isOf_open hmem _
    · exact isOf_one hmem _

theorem isOf_cluster {arg : String} (h : form.cluster arg = .ok c) : form.IsOf c := by
  unfold cluster at h
  dsimp only at h
  split at h
  · rename_i hlong
    rw [h] at hlong
    exact isOf_long hlong
  · cases h
  · exact isOf_letters h

/-- **A command line mentions only options of its form.** -/
theorem mem_options_of_read {args : List String} {given : Given} (h : form.read args = .ok given) :
    ∀ m ∈ given.options, m.1 ∈ form.options := by
  fun_induction Form.read form args generalizing given with
  | case1 => cases h; simp
  | case2 => cases h; simp
  | case3 => cases h
  | case4 => cases h
  | case5 arg _ _ options o name v rest hcluster ih =>
    obtain ⟨later, hlater, rfl⟩ := ok_of_map h
    have hof := isOf_cluster hcluster
    exact List.forall_mem_append.2
      ⟨hof.options, List.forall_mem_cons.2 ⟨hof.last o name rfl, ih hlater⟩⟩
  | case6 arg _ _ options rest hcluster ih =>
    obtain ⟨later, hlater, rfl⟩ := ok_of_map h
    exact List.forall_mem_append.2 ⟨(isOf_cluster hcluster).options, ih hlater⟩
  | case7 arg rest _ _ _ ih =>
    obtain ⟨later, hlater, rfl⟩ := ok_of_map h
    have hrest := ih hlater
    exact hrest
  | case8 => cases h; simp

end Form

/-! ## The command `run` -/

section

variable {args : List String} {given : Given}

/-- **Without a call for help, the command does its work.** -/
theorem instead?_run_eq_none (h : runForm.read args = .ok given) (hhelp : given.has .help = false)
    (help : List String) : instead? help given = none := by
  rw [instead?, List.findSome?_eq_none_iff]
  rintro ⟨o, v⟩ hmem
  have hform : o ∈ runForm.options := Form.mem_options_of_read h _ hmem
  have hkey : o.key ≠ .help := by
    intro heq
    rw [Given.has, List.any_eq_false] at hhelp
    exact hhelp _ hmem (by simpa using heq)
  have hversion : ∀ o ∈ runForm.options, o.key ≠ .version := by decide
  have hother := hversion o hform
  cases hcase : o.key <;> simp_all

/-- The program hands the arguments behind `run` to that command. -/
theorem perform_run (files : Files) (stamp : String) (args : List String) :
    perform files stamp ("run" :: args) = call .run files stamp args := by
  have hread : mainForm.read ("run" :: args) = .ok ⟨[], "run" :: args⟩ := by
    rw [Form.read.eq_def]
    dsimp only
    rw [if_neg (by decide), if_neg (by decide), if_neg (by decide)]
  simp only [perform, hread]
  rfl

/-- How the command `run` may end without a call for help: its command line is misused, or it does
what the line gives. -/
inductive Runs (files : Files) (stamp : String) (args : List String) : Ending → Prop
  | misused (misuse : Misuse)
      (h : runForm.read args = .error misuse ∨
        ∃ given, runForm.read args = .ok given ∧ runForm.misuse? files given = some misuse) :
      Runs files stamp args (.misused files runForm misuse)
  | worked (given : Given) (hread : runForm.read args = .ok given)
      (hmisuse : runForm.misuse? files given = none) :
      Runs files stamp args (work .run given files stamp)

/-- **The command line is misused, or the command does what it gives.** -/
theorem runs_perform {files : Files} {stamp : String}
    (hhelp : ∀ given, runForm.read args = .ok given → given.has .help = false) :
    Runs files stamp args (perform files stamp ("run" :: args)) := by
  have hform : Verb.run.form = runForm := rfl
  rw [perform_run]
  cases hread : runForm.read args with
  | error misuse =>
    have hcall : call .run files stamp args = .misused files runForm misuse := by
      simp only [call, hform, hread]
    rw [hcall]
    exact .misused misuse (Or.inl hread)
  | ok given =>
    have hinstead := instead?_run_eq_none hread (hhelp given hread) (Help.lines runForm)
    cases hmisuse : runForm.misuse? files given with
    | some misuse =>
      have hcall : call .run files stamp args = .misused files runForm misuse := by
        simp only [call, hform, hread, hinstead, hmisuse]
      rw [hcall]
      exact .misused misuse (Or.inr ⟨given, hread, hmisuse⟩)
    | none =>
      have hcall : call .run files stamp args = work .run given files stamp := by
        simp only [call, hform, hread, hinstead, hmisuse]
      rw [hcall]
      exact .worked given hread hmisuse

end

end Command

end Octets
