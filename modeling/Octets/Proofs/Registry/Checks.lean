import Octets.Proofs.Pipeline.Build
import Octets.Proofs.Value.Lookup

/-!
# The faults of checks

A chain of checks fails with a fault of one of its parts, so what is true of the faults of all parts
is true of those of the chain (`Only`). Parameters are refused as such (`Fault.IsObjection`). Any
other fault of making a transform is due to a value: one that a message cannot show, a text without
an encoding, or a seed of a kind that seeds nothing.

* `Only.bind`, `Action.Only.bind` — the faults of a chain.
* `only_makeBitwise` and its like — the faults of the checks of each kind of transform.
* `Random.only_seedOf` — the faults of seeding a generator.
* `Family.only_ofParams` — the faults of making a transform from parameters.
-/

namespace Octets

/-- A parameter has no value, or one that cannot be used. -/
def Fault.IsObjection (fault : Fault) : Prop :=
  (∃ cause transform, fault = .unusable cause transform) ∨
    ∃ parameter transform, fault = .nullParameter parameter transform

theorem Fault.isObjection_unusable (cause : Objection) (transform : Option String) :
    IsObjection (.unusable cause transform) :=
  Or.inl ⟨cause, transform, rfl⟩

theorem Fault.isObjection_nullParameter (parameter : String) (transform : Option String) :
    IsObjection (.nullParameter parameter transform) :=
  Or.inr ⟨parameter, transform, rfl⟩

/-! ## Chains -/

/-- All faults of the outcome are such. -/
def Only {α : Type} (P : Fault → Prop) (x : Except Fault α) : Prop :=
  ∀ fault, x = .error fault → P fault

section

variable {α β : Type} {P Q : Fault → Prop} {x : Except Fault α}

theorem only_ok (a : α) : Only P (.ok a) := by
  intro fault h
  cases h

theorem only_error {fault : Fault} (h : P fault) : Only P (.error fault : Except Fault α) := by
  intro fault' heq
  cases heq
  exact h

theorem Only.mono (h : Only P x) (himp : ∀ fault, P fault → Q fault) : Only Q x :=
  fun fault heq => himp fault (h fault heq)

theorem Only.bind {f : α → Except Fault β} (hx : Only P x) (hf : ∀ a, x = .ok a → Only P (f a)) :
    Only P (x >>= f) := by
  cases x with
  | error fault => exact only_error (hx fault rfl)
  | ok a => exact hf a rfl

theorem Only.map {f : α → β} (hx : Only P x) : Only P (x.map f) := by
  cases x with
  | error fault => exact only_error (hx fault rfl)
  | ok a => exact only_ok _

theorem only_mapError {ε : Type} {x : Except ε α} {cause : ε → Fault} (h : ∀ e, P (cause e)) :
    Only P (x.mapError cause) := by
  cases x with
  | error e => exact only_error (h e)
  | ok a => exact only_ok a

theorem only_mapM {f : α → Except Fault β} {l : List α} (h : ∀ a ∈ l, Only P (f a)) :
    Only P (l.mapM f) := by
  induction l with
  | nil => exact only_ok _
  | cons a rest ih =>
    obtain ⟨hfirst, hrest⟩ := List.forall_mem_cons.1 h
    rw [List.mapM_cons]
    exact hfirst.bind fun _ _ => (ih hrest).bind fun _ _ => only_ok _

/-- What is in a list that is made item by item is made of an item. -/
theorem exists_of_mapM {f : α → Except Fault β} {l : List α} {l' : List β}
    (h : l.mapM f = .ok l') {b : β} (hb : b ∈ l') : ∃ a ∈ l, f a = .ok b := by
  induction l generalizing l' with
  | nil =>
    cases h
    cases hb
  | cons a rest ih =>
    rw [List.mapM_cons] at h
    obtain ⟨first, hfirst, h⟩ := ok_of_bind h
    obtain ⟨later, hlater, h⟩ := ok_of_bind h
    cases h
    rcases List.mem_cons.1 hb with rfl | hb
    · exact ⟨a, List.mem_cons_self, hfirst⟩
    · obtain ⟨a', ha', hb'⟩ := ih hlater hb
      exact ⟨a', List.mem_cons_of_mem _ ha', hb'⟩

end

namespace Action

variable {α β : Type} {P Q : Fault → Prop}

/-- All faults of the action are such, from whatever store it starts. -/
def Only (P : Fault → Prop) (action : Action α) : Prop :=
  ∀ s, Octets.Only P (action.outcome s).1

theorem only_pure (a : α) : Only P (pure a) := fun _ => only_ok a

theorem only_get : Only P (get : Action Store) := fun s => only_ok s

theorem only_fail {fault : Fault} (h : P fault) : Only P (fail fault : Action α) :=
  fun _ => only_error h

theorem only_reading {f : (Nat → Bytes) → Except Fault α}
    (h : ∀ contents, Octets.Only P (f contents)) : Only P (reading f) := by
  intro s
  rw [outcome_reading]
  exact h s.bytes

theorem Only.bind {x : Action α} {f : α → Action β} (hx : x.Only P) (hf : ∀ a, (f a).Only P) :
    (x >>= f).Only P := by
  intro s
  have hs := hx s
  rw [outcome_bind]
  rcases hrun : x.outcome s with ⟨fault | a, s'⟩
  · rw [hrun] at hs
    exact only_error (hs fault rfl)
  · exact hf a s'

theorem Only.mono {action : Action α} (h : action.Only P) (himp : ∀ fault, P fault → Q fault) :
    action.Only Q :=
  fun s => (h s).mono himp

end Action

/-! ## Values in messages -/

/-- A message can show the value, or it is such a fault that none can. -/
def Value.IsShownOr (P : Fault → Prop) (v : Value) : Prop :=
  v.isWritable = true ∨ P (.badValue (.excess .written))

section

variable {P : Fault → Prop} (contents : Nat → Bytes) {v w : Value}

theorem Value.only_printed (h : v.IsShownOr P) :
    Only P (v.printed contents) := by
  unfold printed
  split
  · exact only_ok _
  · exact only_error (h.resolve_left ‹_›)

theorem Value.only_quoted (h : v.IsShownOr P) :
    Only P (v.quoted contents) := by
  unfold quoted
  split
  · exact only_ok _
  · exact only_error (h.resolve_left ‹_›)

/-! ## Checks of parameters -/

namespace Transform

variable (hobject : ∀ fault, fault.IsObjection → P fault)

include hobject

theorem only_toMode (hv : v.IsShownOr P) :
    Only P (toMode contents v) := by
  unfold toMode
  split
  · exact only_ok _
  · exact (v.only_quoted contents hv).bind fun _ _ =>
      only_error (hobject _ (Fault.isObjection_unusable _ _))

theorem only_toDirection (hv : v.IsShownOr P) :
    Only P (toDirection contents v) := by
  unfold toDirection
  split
  · exact only_ok _
  · exact (v.only_quoted contents hv).bind fun _ _ =>
      only_error (hobject _ (Fault.isObjection_unusable _ _))

theorem only_toInteger (field transform : String)
    (hv : v.IsShownOr P) :
    Only P (toInteger contents field transform v) := by
  unfold toInteger
  split
  · exact only_ok _
  · exact (v.only_quoted contents hv).bind fun _ _ =>
      only_error (hobject _ (Fault.isObjection_unusable _ _))

theorem only_present (field transform : String) (v : Value) :
    Only P (present field transform v) := by
  unfold present
  split
  · exact only_error (hobject _ (Fault.isObjection_nullParameter _ _))
  · exact only_ok _

theorem only_parse (name : String) (v : Value) : Only P (v.parse contents name) := by
  unfold Value.parse
  split
  · exact only_mapError fun _ => hobject _ (Fault.isObjection_unusable _ _)
  · exact only_ok _
  · exact only_mapError fun _ => hobject _ (Fault.isObjection_unusable _ _)
  · exact only_mapError fun _ => hobject _ (Fault.isObjection_unusable _ _)
  · exact only_error (hobject _ (Fault.isObjection_nullParameter _ _))
  · exact only_error (hobject _ (Fault.isObjection_unusable _ _))

theorem only_makeBitwise (hw : w.IsShownOr P) :
    Only P (makeBitwise contents v w) :=
  (only_present hobject _ _ v).bind fun _ _ => (only_present hobject _ _ w).bind fun _ _ =>
    (only_toMode contents hobject hw).bind fun _ _ =>
      (only_parse contents hobject _ v).bind fun _ _ => only_ok _

theorem only_makeShift (hv : v.IsShownOr P)
    (hw : w.IsShownOr P) : Only P (makeShift contents v w) :=
  (only_present hobject _ _ v).bind fun _ _ => (only_present hobject _ _ w).bind fun _ _ =>
    (only_toInteger contents hobject _ _ hv).bind fun _ _ =>
      (only_toDirection contents hobject hw).bind fun _ _ => only_ok _

theorem only_makeConcat (v : Value) : Only P (makeConcat contents v) :=
  (only_present hobject _ _ v).bind fun _ _ =>
    (only_parse contents hobject _ v).bind fun _ _ => only_ok _

theorem only_makeSort (v : Value) : Only P (makeSort v) := by
  unfold makeSort
  split
  · exact only_ok _
  · exact only_ok _
  · exact only_error (hobject _ (Fault.isObjection_unusable _ _))

theorem only_makeShuffle (v : Value) : Only P (makeShuffle v) := by
  unfold makeShuffle
  split
  · exact only_error (hobject _ (Fault.isObjection_nullParameter _ _))
  · exact only_ok _
  · exact only_error (hobject _ (Fault.isObjection_unusable _ _))

theorem only_makeCopy (hv : v.IsShownOr P)
    (hw : w.IsShownOr P) : Only P (makeCopy contents v w) :=
  (only_present hobject _ _ v).bind fun _ _ =>
    (only_toInteger contents hobject _ _ hv).bind fun _ _ =>
    (only_present hobject _ _ w).bind fun _ _ =>
      (only_toInteger contents hobject _ _ hw).bind fun _ _ => only_ok _

theorem only_makeResize (hv : v.IsShownOr P) :
    Only P (makeResize contents v) :=
  (only_present hobject _ _ v).bind fun _ _ =>
    (only_toInteger contents hobject _ _ hv).bind fun _ _ => only_ok _

end Transform

end

/-! ## Seeds -/

namespace Random

/-- A generator can be seeded with a value of this kind. -/
def IsSeed : Value → Prop
  | .bool _ => True
  | .int _ => True
  | .float _ => True
  | .text _ => True
  | .mode _ => True
  | .direction _ => True
  | .bytes _ => True
  | .buffer _ => True
  | _ => False

variable {P : Fault → Prop} {v : Value}

/-- A seed is refused because it is a text without an encoding, or because its kind seeds
nothing. -/
theorem only_seedOf (contents : Nat → Bytes) (hnull : v.isNull = false)
    (hhalves : ∀ text cause, v = .text text → Text.Utf8.ofString text = .error cause →
      P (.badValue (.halves cause)))
    (hseed : ¬ IsSeed v → P (.wrongKind .seed)) : Only P (seedOf contents v) := by
  cases v with
  | text s =>
    have htext : seedOf contents (.text s) = seedOfText s := rfl
    rw [htext, seedOfText]
    cases hencoded : Text.Utf8.ofString s with
    | ok bs => exact only_ok _
    | error cause => exact only_error (hhalves s cause rfl hencoded)
  | mode m => cases m <;> exact only_ok _
  | direction d => cases d <;> exact only_ok _
  | bool _ => exact only_ok _
  | int _ => exact only_ok _
  | float _ => exact only_ok _
  | bytes _ => exact only_ok _
  | buffer _ => exact only_ok _
  | null => cases hnull
  | _ => exact only_error (hseed id)

theorem seedOf_of_not_isSeed (contents : Nat → Bytes) (h : ¬ IsSeed v) (hnull : v.isNull = false) :
    seedOf contents v = .error (.wrongKind .seed) := by
  cases v <;> first | rfl | exact absurd trivial h | cases hnull

end Random

/-- There is no generator among the parameters, and nothing that one can be seeded with in the place
of the seed. -/
def Dict.LacksSeed (params : Dict) : Prop :=
  (Dict.get params "rng").isNull = true ∧ (Dict.get params "seed").isNull = false ∧
    ¬ Random.IsSeed (Dict.get params "seed")

/-! ## Families -/

namespace Family

variable {P : Fault → Prop}

/-- The faults that the values of a parameter dictionary are to blame for are such: of keys and
values that no message can show, of a text as the seed that has no encoding, and of what seeds
nothing. -/
structure Blames (P : Fault → Prop) (k : Kind) (params : Dict) : Prop where
  keys : ∀ e ∈ params, e.1.IsShownOr P
  values : ∀ e ∈ params, e.2.IsShownOr P
  halves : ∀ text cause, Dict.get params "seed" = .text text →
    Text.Utf8.ofString text = .error cause →
    P (.badValue (.halves cause))
  seed : k = .shuffle → params.LacksSeed → P (.wrongKind .seed)

variable {k : Kind} {params : Dict} (hobject : ∀ fault, fault.IsObjection → P fault)

include hobject

theorem only_checkKeys (contents : Nat → Bytes) (family : Family)
    (h : ∀ e ∈ params, e.1.IsShownOr P) : Only P (checkKeys contents family params) := by
  refine Only.bind (Only.bind (only_mapM fun e he => ?_) fun _ _ => only_ok _) fun unknown _ => ?_
  · exact e.1.only_printed contents (h e (List.mem_filter.1 he).1)
  · split
    · exact only_ok _
    · exact only_error (hobject _ (Fault.isObjection_unusable _ _))

theorem only_shuffleOf (h : Blames P .shuffle params) : (shuffleOf params).Only P := by
  simp only [shuffleOf]
  cases hrng : (Dict.get params "rng").isNull with
  | false => exact Action.only_reading fun _ => Transform.only_makeShuffle hobject _
  | true =>
    cases hseed : (Dict.get params "seed").isNull with
    | true => exact Action.only_fail (hobject _ (Fault.isObjection_nullParameter _ _))
    | false =>
      refine (Action.only_reading fun contents => ?_).bind fun n s => only_ok _
      exact Random.only_seedOf contents hseed h.halves fun hkind => h.seed rfl ⟨hrng, hseed, hkind⟩

/-- **The faults of making a transform** are those of parameters, and those that the values are to
blame for. -/
theorem only_ofParams (h : Blames P k params) : ((builtin k).ofParams params).Only P := by
  have hgetD : ∀ key v, v.IsShownOr P → ((Dict.get? params key).getD v).IsShownOr P :=
    fun key v hv => Dict.getD_of_forall h.values key hv
  have hget : ∀ key, (Dict.get params key).IsShownOr P := fun key => hgetD key .null (Or.inl rfl)
  refine (Action.only_reading fun contents => only_checkKeys hobject contents _ h.keys).bind
    fun _ => ?_
  cases k with
  | bitwise =>
    exact Action.only_reading fun contents => Transform.only_makeBitwise contents hobject (hget _)
  | negate => exact Action.only_pure _
  | shift =>
    exact Action.only_reading fun contents =>
      Transform.only_makeShift contents hobject (hgetD _ _ (hget _)) (hget _)
  | concat => exact Action.only_reading fun contents => Transform.only_makeConcat contents hobject _
  | reverse => exact Action.only_pure _
  | sort =>
    dsimp only
    split
    · exact Action.only_reading fun _ => Transform.only_makeSort hobject _
    · exact Action.only_get.bind fun _ => Action.only_pure _
  | shuffle => exact only_shuffleOf hobject h
  | copy =>
    have hoffset : (Value.int 0).isWritable = true := by decide +kernel
    exact Action.only_reading fun contents =>
      Transform.only_makeCopy contents hobject (hgetD _ _ (Or.inl hoffset)) (hget _)
  | resize =>
    exact Action.only_reading fun contents =>
      Transform.only_makeResize contents hobject (hgetD _ _ (hget _))

end Family

end Octets
