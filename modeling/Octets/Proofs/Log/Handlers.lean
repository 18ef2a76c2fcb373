import Octets.Log.Logging
import Octets.Proofs.Files.Frame

/-!
# What logging does to files

Records go to the files of the handlers, and to no other. An engine that configures its logging
attaches at most one handler, whose file it opens; to close the engine detaches all of its handlers.

* `keepsBut_emitAll` — records change only the files of the handlers in use.
* `configured_configure` — what configuring leaves, in three cases.
* `handlers_close_configure` — configuring and closing leaves the handlers of others as they were.
-/

namespace Octets.Log.Logging

open Octets.Files (KeepsBut Covers)

/-! ## Records -/

section

variable (logging : Logging) (stamp : String)

/-- The route is that of a file that a handler writes. -/
def Writes (logging : Logging) (route : Route) : Prop := ∃ h ∈ logging.handlers, h.route = route

theorem keepsBut_appends {handlers : List Handler} (h : ∀ h ∈ handlers, h ∈ logging.handlers)
    (content : Bytes) (files : Files) :
    KeepsBut logging.Writes files
      (handlers.foldl (fun files h => files.append h.route content) files) := by
  induction handlers generalizing files with
  | nil => exact .refl _ _
  | cons handler rest ih =>
    obtain ⟨hfirst, hrest⟩ := List.forall_mem_cons.1 h
    have hkept : KeepsBut logging.Writes files (files.append handler.route content) := by
      refine (Files.keepsBut_append files handler.route content).mono ?_
      rintro route rfl
      exact ⟨handler, hfirst, rfl⟩
    rw [List.foldl_cons]
    exact hkept.trans (ih hrest _)

theorem keepsBut_emit (files : Files) (r : Record) :
    KeepsBut logging.Writes files (logging.emit stamp files r) := by
  unfold emit
  split
  · exact .refl _ _
  · exact logging.keepsBut_appends (fun h hmem => (List.mem_filter.1 hmem).1) _ files

/-- **Records change only the files of the handlers in use.** -/
theorem keepsBut_emitAll (files : Files) (rs : List Record) :
    KeepsBut logging.Writes files (logging.emitAll stamp files rs) := by
  unfold emitAll
  induction rs generalizing files with
  | nil => exact .refl _ _
  | cons r rest ih =>
    rw [List.foldl_cons]
    exact (logging.keepsBut_emit stamp files r).trans (ih _)

end

/-! ## Configuring -/

theorem create_of_openFile {files files' : Files} {path : PathName}
    (h : openFile files path = .ok files') :
    files.create (Route.settled path.toText) = .ok files' :=
  Files.ok_of_opening h

/-- What configuring may leave: the handlers and files as they were, or one more handler of the
engine for the path, with its file. -/
inductive Configured (owner : Nat) (path : Value) (logging : Logging) (files : Files) :
    Logging → Files → Prop
  | kept {logging' : Logging} (h : logging'.handlers = logging.handlers) :
      Configured owner path logging files logging' files
  | attached {logging' : Logging} {files' : Files} (name : PathName) (handler : Handler)
      (hname : pathOf path = .ok name)
      (hcreate : files.create (Route.settled name.toText) = .ok files')
      (howner : handler.owner = owner) (hroute : handler.route = fileOf name)
      (h : logging'.handlers = logging.handlers ++ [handler]) :
      Configured owner path logging files logging' files'

section

variable {logging logging' : Logging} {files files' : Files} {owner : Nat} {path : Value}

/-- No handler of the engine is attached. -/
def IsFree (logging : Logging) (owner : Nat) : Prop := ∀ h ∈ logging.handlers, h.owner ≠ owner

theorem configured_attach (hfree : logging.IsFree owner) {level : Int}
    (h : logging.attach files owner level path = .ok (logging', files')) :
    Configured owner path logging files logging' files' := by
  unfold attach at h
  cases hname : pathOf path with
  | error fault =>
    rw [hname] at h
    cases h
  | ok name =>
    have hnone : logging.handlers.any (isFor owner name) = false := by
      rw [List.any_eq_false]
      intro handler hmem
      simp [isFor, hfree handler hmem]
    simp only [hname, bind, Except.bind, hnone, Bool.false_eq_true, if_false] at h
    cases hopen : openFile files name with
    | error fault =>
      rw [hopen] at h
      cases h
    | ok opened =>
      rw [hopen] at h
      cases h
      exact .attached name _ hname (create_of_openFile hopen) rfl rfl rfl

/-- **Configuring leaves all as it was, or attaches one handler and opens its file.** -/
theorem configured_configure (hfree : logging.IsFree owner) (files : Files) (contents : Nat → Bytes)
    (level path : Value) :
    let x := logging.configure files contents owner level path
    Configured owner path logging files x.2.1 x.2.2 := by
  unfold configure
  cases levelFrom contents level with
  | error fault => exact .kept rfl
  | ok n =>
    dsimp only
    split
    · cases hattach : attach { logging with rootLevel := n } files owner n path with
      | error fault => exact .kept rfl
      | ok x =>
        have hlevel : IsFree { logging with rootLevel := n } owner := hfree
        cases configured_attach hlevel hattach with
        | kept h => exact .kept h
        | attached name handler hname hcreate howner hroute h =>
          exact .attached name handler hname hcreate howner hroute h
    · exact .kept rfl

/-- What is changed by configuring is the file of the path. -/
theorem Configured.keepsBut (h : Configured owner path logging files logging' files') :
    KeepsBut (fun route => ∃ name, pathOf path = .ok name ∧ route = fileOf name) files files' := by
  cases h with
  | kept _ => exact .refl _ _
  | attached name _ hname hcreate _ _ _ =>
    refine (Files.keepsBut_create hcreate).mono ?_
    rintro route rfl
    exact ⟨name, hname, rfl⟩

theorem Configured.covers (h : Configured owner path logging files logging' files') :
    Covers files files' := by
  cases h with
  | kept _ => exact .refl _
  | attached _ _ _ hcreate _ _ _ => exact Files.covers_create hcreate

/-- The handlers write what those before wrote, or the file of the path. -/
theorem Configured.writes (h : Configured owner path logging files logging' files') {route : Route}
    (hwrites : logging'.Writes route) :
    logging.Writes route ∨ ∃ name, pathOf path = .ok name ∧ route = fileOf name := by
  obtain ⟨handler, hmem, rfl⟩ := hwrites
  cases h with
  | kept h => exact Or.inl ⟨handler, h ▸ hmem, rfl⟩
  | attached name last hname _ _ hroute h =>
    rw [h, List.mem_append, List.mem_singleton] at hmem
    rcases hmem with hmem | rfl
    · exact Or.inl ⟨handler, hmem, rfl⟩
    · exact Or.inr ⟨name, hname, hroute⟩

/-- **Configuring and closing leaves the handlers of others as they were.** -/
theorem Configured.handlers_close (hfree : logging.IsFree owner)
    (h : Configured owner path logging files logging' files') :
    (logging'.close owner).handlers = logging.handlers := by
  have hkept : logging.handlers.filter (fun h => h.owner != owner) = logging.handlers := by
    rw [List.filter_eq_self]
    intro handler hmem
    simpa using hfree handler hmem
  cases h with
  | kept h => rw [close, h, hkept]
  | attached _ handler _ _ howner _ h => simp [close, h, List.filter_append, hkept, howner]

end

end Octets.Log.Logging
