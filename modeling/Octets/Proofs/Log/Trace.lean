import Octets.Log.Logging
import Octets.Proofs.Files.Frame
import Octets.Proofs.Text.Utf8

/-!
# What a log file holds

A handler adds lines to the end of its file, and nothing else is written there. What a record adds
is a list of deliveries, one for each handler on the file that the record reaches.

* `contentAt_create`, `contentAt_append` — to open a file leaves all contents; to append adds to
  one.
* `opens_configure` — configuring opens one file at most, for the handler that it attaches.
* `contentAt_emit` — a record adds its deliveries, in the order of the handlers.
-/

namespace Octets

/-! ## Contents -/

namespace Files

/-- The content of the file at a route; nothing, if there is no file. -/
def contentAt (files : Files) (route : Route) : Bytes :=
  match files.node? route with
  | some (.file content) => content
  | _ => []

/-- There is a file at the route. -/
def HasFile (files : Files) (route : Route) : Prop :=
  ∃ content, files.node? route = some (.file content)

section

variable {files files' : Files} {route other : Route}

theorem contentAt_congr (h : files'.node? route = files.node? route) :
    files'.contentAt route = files.contentAt route := by
  rw [contentAt, contentAt, h]

theorem HasFile.of_covers (hcovers : Covers files files') (h : files.HasFile route) :
    files'.HasFile route := by
  obtain ⟨content, hnode⟩ := h
  exact ⟨content, hcovers _ _ hnode⟩

/-- **To open a file leaves all contents as they were.** -/
theorem contentAt_create {path : String} (h : files.create path = .ok files') (route : Route) :
    files'.contentAt route = files.contentAt route := by
  rcases (cases_of_create h).2 with ⟨_, -, rfl⟩ | ⟨hnone, rfl⟩
  · rfl
  by_cases hroute : route = routeOf path
  · subst hroute
    have hfile : files.node? (routeOf path) ≠ some .directory := by simp [hnone]
    rw [contentAt, contentAt, node?_put _ _ (isAbove_eq_false hfile), hnone]
  · exact contentAt_congr (node?_put_of_ne _ _ hroute)

theorem hasFile_create {path : String} (h : files.create path = .ok files') :
    files'.HasFile (routeOf path) := by
  rcases (cases_of_create h).2 with ⟨content, hnode, rfl⟩ | ⟨hnone, rfl⟩
  · exact ⟨content, hnode⟩
  · have hfile : files.node? (routeOf path) ≠ some .directory := by simp [hnone]
    exact ⟨[], node?_put _ _ (isAbove_eq_false hfile)⟩

theorem node?_append (h : files.HasFile route) (more : Bytes) :
    (files.append route more).node? route = some (.file (files.contentAt route ++ more)) := by
  obtain ⟨content, hnode⟩ := h
  have hfile : files.node? route ≠ some .directory := by simp [hnode]
  rw [append, contentAt, hnode]
  exact node?_put _ _ (isAbove_eq_false hfile)

/-- **To append to a file adds to its content, and to no other.** -/
theorem contentAt_append (h : files.HasFile route) (more : Bytes) (other : Route) :
    (files.append route more).contentAt other
      = files.contentAt other ++ if route = other then more else [] := by
  by_cases hroute : route = other
  · subst hroute
    rw [contentAt, node?_append h, if_pos rfl]
  · rw [if_neg hroute, List.append_nil]
    exact contentAt_congr (keepsBut_append files route more other (Ne.symm hroute))

theorem HasFile.append (h : files.HasFile other) (route : Route) (more : Bytes) :
    (files.append route more).HasFile other := by
  by_cases hroute : other = route
  · subst hroute
    exact ⟨_, node?_append h more⟩
  · obtain ⟨content, hnode⟩ := h
    exact ⟨content, by rw [keepsBut_append files route more other hroute, hnode]⟩

end

end Files

namespace Log

/-! ## Deliveries -/

/-- A record on its way to a handler, with the time stamp that its line has. -/
structure Delivery where
  stamp : String
  record : Record
  handler : Handler
  deriving DecidableEq, Repr

namespace Delivery

/-- The line of a delivery, without the line feed behind it. -/
def line (d : Delivery) : List Char := (d.record.line d.stamp).toList

/-- The bytes that a delivery adds: its line, and a line feed. -/
def bytes (d : Delivery) : Bytes := Text.Utf8.encode (d.line ++ ['\n'])

theorem decode_bytes (d : Delivery) : Text.Utf8.decode d.bytes = .ok (d.line ++ ['\n']) :=
  Text.Utf8.decode_encode _

end Delivery

namespace Logging

/-- The handlers on a file that a record of a level reaches. -/
def reached (logging : Logging) (route : Route) (level : Int) : List Handler :=
  logging.handlers.filter fun h =>
    h.route = route ∧ 0 < level ∧ logging.rootLevel ≤ level ∧ h.level ≤ level

/-- What a record adds to a file, if its line can be encoded. -/
def deliveries (logging : Logging) (route : Route) (stamp : String) (r : Record) : List Delivery :=
  match Text.Utf8.ofString (r.line stamp ++ "\n") with
  | .ok _ => (logging.reached route r.level).map fun h => ⟨stamp, r, h⟩
  | .error _ => []

/-- Every handler has its file. -/
def HasFiles (logging : Logging) (files : Files) : Prop :=
  ∀ h ∈ logging.handlers, files.HasFile h.route

section

variable {logging : Logging} {files : Files}

theorem contentAt_appends {handlers : List Handler} (h : ∀ h ∈ handlers, files.HasFile h.route)
    (content : Bytes) (route : Route) :
    (handlers.foldl (fun files h => files.append h.route content) files).contentAt route
      = files.contentAt route ++ (handlers.filter fun h => h.route = route).flatMap fun _ =>
        content := by
  induction handlers generalizing files with
  | nil => simp
  | cons handler rest ih =>
    obtain ⟨hfirst, hrest⟩ := List.forall_mem_cons.1 h
    rw [List.foldl_cons, ih fun h hmem => (hrest h hmem).append _ _, Files.contentAt_append hfirst,
      List.append_assoc, List.filter_cons]
    by_cases hroute : handler.route = route <;> simp [hroute]

theorem HasFiles.appends (h : logging.HasFiles files) (handlers : List Handler) (content : Bytes) :
    logging.HasFiles (handlers.foldl (fun files h => files.append h.route content) files) := by
  induction handlers generalizing files with
  | nil => exact h
  | cons handler rest ih => exact ih fun g hg => (h g hg).append _ _

/-- **A record adds its deliveries to a file**, in the order of the handlers. -/
theorem contentAt_emit (h : logging.HasFiles files) (stamp : String) (r : Record) (route : Route) :
    (logging.emit stamp files r).contentAt route
      = files.contentAt route ++ (logging.deliveries route stamp r).flatMap Delivery.bytes := by
  unfold emit deliveries
  cases hline : Text.Utf8.ofString (r.line stamp ++ "\n") with
  | error halves => simp
  | ok content =>
    have hbytes : ∀ handler, (Delivery.mk stamp r handler).bytes = content := by
      intro handler
      rw [Text.Utf8.eq_encode_of_ofString hline, String.toList_append]
      rfl
    have hreached : (logging.handlers.filter (logging.reaches r.level)).filter
      (fun h => h.route = route)
        = logging.reached route r.level := by
      rw [List.filter_filter]
      refine List.filter_congr fun handler _ => ?_
      simp [reaches, Bool.and_assoc]
    dsimp only
    rw [contentAt_appends fun g hg => h g (List.mem_filter.1 hg).1, hreached, List.flatMap_map]
    simp only [hbytes]

theorem HasFiles.emit (h : logging.HasFiles files) (stamp : String) (r : Record) :
    logging.HasFiles (logging.emit stamp files r) := by
  unfold Logging.emit
  split
  · exact h
  · exact h.appends _ _

/-! ## Configuring and closing -/

theorem routes_relevel (logging : Logging) (owner : Nat) (path : PathName) (level : Int) :
    (logging.relevel owner path level).handlers.map (·.route) = logging.handlers.map (·.route) := by
  rw [relevel, List.map_map]
  refine List.map_congr_left fun h _ => ?_
  simp only [Function.comp]
  split <;> rfl

/-- What configuring opens: nothing, or the file of one more handler. -/
inductive Opens (logging : Logging) (files : Files) : Logging → Files → Prop
  | kept {logging' : Logging}
    (h : logging'.handlers.map (·.route) = logging.handlers.map (·.route)) :
      Opens logging files logging' files
  | opened {logging' : Logging} {files' : Files} (path : String)
    (hcreate : files.create path = .ok files')
      (h : logging'.handlers.map (·.route) = logging.handlers.map (·.route) ++
        [Files.routeOf path]) :
      Opens logging files logging' files'

theorem opens_attach {logging' : Logging} {files' : Files} {owner : Nat} {level : Int}
    {path : Value} (h : logging.attach files owner level path = .ok (logging', files')) :
    Opens logging files logging' files' := by
  unfold attach at h
  cases hname : pathOf path with
  | error fault =>
    rw [hname] at h
    cases h
  | ok name =>
    simp only [hname, bind, Except.bind] at h
    split at h
    · cases h
      exact .kept (logging.routes_relevel owner name level)
    · cases hopen : openFile files name with
      | error fault =>
        rw [hopen] at h
        cases h
      | ok opened =>
        rw [hopen] at h
        cases h
        exact .opened _ (Files.ok_of_opening hopen) (by rw [List.map_append]; rfl)

/-- **Configuring opens one file at most**, for the handler that it attaches. -/
theorem opens_configure (logging : Logging) (files : Files) (contents : Nat → Bytes) (owner : Nat)
    (level path : Value) :
    let x := logging.configure files contents owner level path
    Opens logging files x.2.1 x.2.2 := by
  unfold configure
  cases levelFrom contents level with
  | error fault => exact .kept rfl
  | ok n =>
    dsimp only
    split
    · cases hattach : attach { logging with rootLevel := n } files owner n path with
      | error fault => exact .kept rfl
      | ok x =>
        cases opens_attach hattach with
        | kept h => exact .kept h
        | opened path hcreate h => exact .opened path hcreate h
    · exact .kept rfl

variable {logging' : Logging} {files' : Files}

theorem Opens.contentAt (h : Opens logging files logging' files') (route : Route) :
    files'.contentAt route = files.contentAt route := by
  cases h with
  | kept => rfl
  | opened path hcreate => exact Files.contentAt_create hcreate route

theorem Opens.hasFiles (h : Opens logging files logging' files') (hfiles : logging.HasFiles files) :
    logging'.HasFiles files' := by
  have hold : ∀ route ∈ logging.handlers.map (·.route), files.HasFile route :=
    List.forall_mem_map.2 hfiles
  suffices hnew : ∀ route ∈ logging'.handlers.map (·.route), files'.HasFile route from
    List.forall_mem_map.1 hnew
  cases h with
  | kept h => rwa [h]
  | opened path hcreate h =>
    rw [h, List.forall_mem_append]
    refine ⟨fun route hroute => (hold route hroute).of_covers (Files.covers_create hcreate), ?_⟩
    exact List.forall_mem_singleton.2 (Files.hasFile_create hcreate)

theorem HasFiles.close (h : logging.HasFiles files) (owner : Nat) :
    (logging.close owner).HasFiles files :=
  fun handler hmem => h handler (List.mem_filter.1 hmem).1

end

end Logging

end Log

end Octets
