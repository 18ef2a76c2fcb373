import Octets.Files

/-!
# What opening and writing a file changes

Everything is seen through `Files.node?`: what stands at a route. A file system keeps another but
for some routes (`Files.KeepsBut`) if the same stands in both at all other routes. Opening a path
for writing adds an empty file at most, so all that stood there before still does (`Files.Covers`),
and every file reads as it did.

* `blocked?_eq_none_iff` — a route can be followed if all names on the way lead to directories.
* `cases_of_create` — opening for writing finds a file, or makes one where nothing was.
* `keepsBut_create`, `keepsBut_overwrite`, `keepsBut_append` — only the route of the path is
  changed.
* `read_of_covers` — a file that is read is read again from a file system that covers the first.
* `read_overwrite` — what has been written is what is read.
-/

namespace Octets.Files

/-! ## What stands at a route -/

section

variable {files : Files} {route other : Route} {node : Node}

theorem node?_put_of_ne (files : Files) (node : Node) (h : other ≠ route) :
    (files.put route node).node? other = files.node? other := by
  have hmap : ∀ nodes : List (Route × Node),
      (nodes.map fun e => if e.1 = route then (route, node) else e).find? (fun e => e.1 = other)
        = nodes.find? fun e => e.1 = other := by
    intro nodes
    induction nodes with
    | nil => rfl
    | cons e rest ih =>
      rw [List.map_cons, List.find?_cons, List.find?_cons, ih]
      by_cases he : e.1 = route
      · have hne : e.1 ≠ other := fun heq => h (heq.symm.trans he)
        simp [he, h.symm]
      · simp [he]
  unfold node? put
  split
  · rfl
  · split
    · rw [hmap]
    · simp [h.symm]

/-- Where a file may stand, what is set stands. -/
theorem node?_put (files : Files) (node : Node) (h : isAbove route = false) :
    (files.put route node).node? route = some node := by
  have hmap : ∀ nodes : List (Route × Node), (nodes.any fun e => e.1 = route) = true →
      (nodes.map fun e => if e.1 = route then (route, node) else e).find? (fun e => e.1 = route)
        = some (route, node) := by
    intro nodes hany
    induction nodes with
    | nil => cases hany
    | cons e rest ih =>
      rw [List.map_cons, List.find?_cons]
      by_cases he : e.1 = route
      · simp [he]
      · simp only [List.any_cons, he, decide_false, Bool.false_or] at hany
        simp [he, ih hany]
  unfold node? put
  rw [if_neg (by simp [h])]
  split
  · rename_i hany
    rw [hmap _ hany]
    rfl
  · rename_i hany
    have hnone : files.nodes.find? (fun e => e.1 = route) = none :=
      List.find?_eq_none.2 fun e he heq => hany (List.any_eq_true.2 ⟨e, he, heq⟩)
    simp [hnone]

/-- The directories above the working directory are no files. -/
theorem isAbove_eq_false (h : files.node? route ≠ some .directory) : isAbove route = false := by
  unfold node? at h
  split at h
  · exact absurd rfl h
  · rename_i habove
    simpa using habove

end

/-! ## File systems that differ in some routes -/

/-- The same stands in both at every route but those that `changed` holds of. -/
def KeepsBut (changed : Route → Prop) (files files' : Files) : Prop :=
  ∀ route, ¬ changed route → files'.node? route = files.node? route

/-- All that stands in the first stands in the second. -/
def Covers (files files' : Files) : Prop :=
  ∀ route node, files.node? route = some node → files'.node? route = some node

section

variable {changed changed' : Route → Prop} {files files' files'' : Files} {route : Route}

theorem KeepsBut.refl (changed : Route → Prop) (files : Files) : KeepsBut changed files files :=
  fun _ _ => rfl

theorem KeepsBut.trans (h : KeepsBut changed files files') (h' : KeepsBut changed files' files'') :
    KeepsBut changed files files'' :=
  fun route hroute => (h' route hroute).trans (h route hroute)

theorem KeepsBut.mono (h : KeepsBut changed files files')
    (himp : ∀ route, changed route → changed' route) : KeepsBut changed' files files' :=
  fun route hroute => h route fun hchanged => hroute (himp route hchanged)

theorem Covers.refl (files : Files) : Covers files files :=
  fun _ _ h => h

theorem keepsBut_put (files : Files) (route : Route) (node : Node) :
    KeepsBut (· = route) files (files.put route node) :=
  fun _ hne => files.node?_put_of_ne node hne

theorem keepsBut_append (files : Files) (route : Route) (more : Bytes) :
    KeepsBut (· = route) files (files.append route more) := by
  unfold append
  split
  · exact keepsBut_put files route _
  · exact .refl _ _

end

/-! ## Following a route -/

section

variable {files files' : Files} {route : Route}

theorem blocked?_eq_none_iff : files.blocked? route = none ↔
    ∀ e ∈ route.zipIdx, files.node? (Route.settle (route.take e.2)) = some .directory ∧
      Text.FileName.size e.1 ≤ maxName := by
  rw [blocked?, List.findSome?_eq_none_iff]
  refine forall₂_congr ?_
  rintro ⟨name, i⟩ _
  dsimp only
  cases files.node? (Route.settle (route.take i)) with
  | none => simp
  | some node => cases node <;> simp

theorem blocked?_of_covers (hcovers : Covers files files') (h : files.blocked? route = none) :
    files'.blocked? route = none := by
  rw [blocked?_eq_none_iff] at h ⊢
  intro e he
  exact ⟨hcovers _ _ (h e he).1, (h e he).2⟩

end

/-! ## Opening -/

/-- The route of the file that a path names. -/
def routeOf (path : String) : Route := Route.settle (Route.ofPath path)

section

variable {files files' : Files} {path : String} {content : Bytes} {node : Node}

/-- The path may lead to a file: it is a path, not too long, and can be followed up to its last
name. -/
structure IsOpenable (files : Files) (path : String) : Prop where
  noNull : path.toList.contains '\x00' = false
  notEmpty : path.isEmpty = false
  notLong : ¬ maxPath < Text.FileName.size path
  notBlocked : files.blocked? (Route.ofPath path) = none
  notAsked : Route.asksDirectory path = false

/-- A path is found to be a file just if it may lead to one, and that stands there. -/
theorem find_eq_file_iff : files.find path = .ok (.file content) ↔
    IsOpenable files path ∧ files.node? (routeOf path) = some (.file content) := by
  constructor
  · intro h
    unfold find at h
    split at h
    · cases h
    rename_i hnull
    split at h
    · cases h
    rename_i hempty
    split at h
    · cases h
    rename_i hlong
    have hnode : files.blocked? (Route.ofPath path) = none ∧ Route.asksDirectory path = false ∧
        files.node? (routeOf path) = some (.file content) := by
      rw [routeOf]
      cases hblocked : files.blocked? (Route.ofPath path) with
      | some flaw => simp [hblocked] at h
      | none =>
        cases hnode : files.node? (Route.settle (Route.ofPath path)) with
        | none => simp [hblocked, hnode] at h
        | some node =>
          cases node with
          | directory => simp [hblocked, hnode] at h
          | file found =>
            simp only [hblocked, hnode] at h
            split at h
            · cases h
            · rename_i hasked
              cases h
              exact ⟨rfl, by simpa using hasked, rfl⟩
    exact ⟨⟨by simpa using hnull, by simpa using hempty, hlong, hnode.1, hnode.2.1⟩, hnode.2.2⟩
  · rintro ⟨h, hnode⟩
    rw [routeOf] at hnode
    simp only [find, h.noNull, h.notEmpty, h.notLong, h.notBlocked, hnode, h.notAsked,
      Bool.false_eq_true, if_false]

theorem read_eq_ok_iff : files.read path = .ok content ↔
    IsOpenable files path ∧ files.node? (routeOf path) = some (.file content) := by
  rw [← find_eq_file_iff, read]
  split <;> rename_i h <;> simp [h]

theorem IsOpenable.of_covers (hcovers : Covers files files') (h : IsOpenable files path) :
    IsOpenable files' path :=
  { h with notBlocked := blocked?_of_covers hcovers h.notBlocked }

/-- **A file that is read is read again** from a file system in which all still stands. -/
theorem read_of_covers (hcovers : Covers files files') (h : files.read path = .ok content) :
    files'.read path = .ok content := by
  obtain ⟨hopen, hnode⟩ := read_eq_ok_iff.1 h
  exact read_eq_ok_iff.2 ⟨hopen.of_covers hcovers, hcovers _ _ hnode⟩

/-- What is opened has been found at the path. -/
theorem ok_of_opening {α : Type} {name : PathName} {outcome : Except FileFlaw α} {a : α}
    (h : opening name outcome = .ok a) : outcome = .ok a := by
  unfold opening at h
  split at h
  · cases h
  · cases outcome with
    | error flaw => cases h
    | ok b => exact congrArg _ (Except.ok.inj h)

/-- **Opening for writing finds a file, or makes one where nothing was.** -/
theorem cases_of_create (h : files.create path = .ok files') :
    IsOpenable files path ∧
      ((∃ content, files.node? (routeOf path) = some (.file content) ∧ files' = files) ∨
        (files.node? (routeOf path) = none ∧ files' = files.put (routeOf path) (.file []))) := by
  unfold create at h
  split at h
  · rename_i content hfind
    obtain ⟨hopen, hnode⟩ := find_eq_file_iff.1 hfind
    cases h
    exact ⟨hopen, Or.inl ⟨content, hnode, rfl⟩⟩
  · cases h
  · rename_i flaw hfind
    dsimp only at h
    split at h
    · rename_i hmissing
      simp only [Bool.and_eq_true, decide_eq_true_eq, Bool.not_eq_true', Option.isNone_iff_eq_none]
        at hmissing
      obtain ⟨⟨rfl, hempty⟩, hblocked⟩ := hmissing
      split at h
      · cases h
      · rename_i hasked
        cases h
        -- of all that `find` looks at only an absent node can be missing here
        simp only [find, hempty, hblocked, Bool.false_eq_true, if_false] at hfind
        split at hfind
        · cases hfind
        rename_i hnull
        split at hfind
        · cases hfind
        rename_i hlong
        have hnode : files.node? (routeOf path) = none := by
          rw [routeOf]
          cases hnode : files.node? (Route.settle (Route.ofPath path)) with
          | none => rfl
          | some node => cases node <;> simp [hnode] at hfind
        exact ⟨⟨by simpa using hnull, hempty, hlong, hblocked, by simpa using hasked⟩,
          Or.inr ⟨hnode, rfl⟩⟩
    · cases h

theorem keepsBut_create (h : files.create path = .ok files') :
    KeepsBut (· = routeOf path) files files' := by
  rcases (cases_of_create h).2 with ⟨_, -, rfl⟩ | ⟨-, rfl⟩
  · exact .refl _ _
  · exact keepsBut_put files _ _

/-- Nothing goes away by opening a path for writing. -/
theorem covers_create (h : files.create path = .ok files') : Covers files files' := by
  rcases (cases_of_create h).2 with ⟨_, -, rfl⟩ | ⟨hnone, rfl⟩
  · exact .refl _
  · intro route node hnode
    have hne : route ≠ routeOf path := by
      rintro rfl
      rw [hnone] at hnode
      cases hnode
    rw [files.node?_put_of_ne _ hne, hnode]

/-- To overwrite a file is to open it for writing and to set its content. -/
theorem exists_create_of_overwrite (h : files.overwrite path content = .ok files') :
    ∃ opened, files.create path = .ok opened ∧
      files' = opened.put (routeOf path) (.file content) := by
  unfold overwrite at h
  cases hcreate : files.create path with
  | error flaw => simp [hcreate, Except.map] at h
  | ok opened =>
    simp only [hcreate, Except.map, Except.ok.injEq] at h
    exact ⟨opened, rfl, h.symm⟩

theorem keepsBut_overwrite (h : files.overwrite path content = .ok files') :
    KeepsBut (· = routeOf path) files files' := by
  obtain ⟨opened, hcreate, rfl⟩ := exists_create_of_overwrite h
  exact (keepsBut_create hcreate).trans (keepsBut_put opened _ _)

/-- **What has been written is what is read.** -/
theorem read_overwrite (h : files.overwrite path content = .ok files') :
    files'.read path = .ok content := by
  have hkept := keepsBut_overwrite h
  obtain ⟨opened, hcreate, rfl⟩ := exists_create_of_overwrite h
  obtain ⟨hopen, hnode⟩ := cases_of_create hcreate
  -- no directory stands at the route, so it is none of those on the way to it
  have hfile : files.node? (routeOf path) ≠ some .directory := by
    rcases hnode with ⟨_, hnode, -⟩ | ⟨hnode, -⟩ <;> simp [hnode]
  have hway := blocked?_eq_none_iff.1 hopen.notBlocked
  refine read_eq_ok_iff.2 ⟨{ hopen with notBlocked := ?_ }, ?_⟩
  · refine blocked?_eq_none_iff.2 fun e he => ⟨?_, (hway e he).2⟩
    rw [hkept, (hway e he).1]
    intro heq
    exact hfile (heq ▸ (hway e he).1)
  · exact opened.node?_put (.file content) (isAbove_eq_false hfile)

end

end Octets.Files
