import Octets.Proofs.Registry.Checks

/-!
# What building gives

Whatever values a parameter dictionary holds, building ends in one of a few ways: with a transform
all of whose fields are of their kinds, with a refusal of the name or of a parameter, or with a seed
of a kind that seeds nothing.

* `checkKeys_of_accepted`, `checkKeys_of_not_accepted` — the keys decide before any value is looked
  at.
* `outcome_build` — a name that is registered builds from the parameters over its defaults.
* `build_sound` — the ways in which building ends, and when each of them does.
-/

namespace Octets

/-! ## Keys -/

namespace Family

/-- The family accepts the key in a dictionary of parameters. -/
def Accepts (family : Family) (key : Value) : Prop := ∃ a ∈ family.accepted, key.asText? = some a

variable {family : Family} {contents : Nat → Bytes} {params : Dict}

/-- Only the text of a key counts. -/
theorem accepts_congr {key other : Value} (h : key.asText? = other.asText?) :
    family.Accepts key ↔ family.Accepts other := by
  rw [Accepts, Accepts, h]

theorem accepts_putAll {defaults : Dict} (hdefaults : ∀ e ∈ defaults, family.Accepts e.1)
    (hparams : ∀ e ∈ params, family.Accepts e.1) :
    ∀ e ∈ Dict.putAll defaults params, family.Accepts e.1 := by
  intro e he
  exact (Dict.forall_mem_putAll (P := family.Accepts) (Q := fun _ => True)
    (fun e he => ⟨hdefaults e he, trivial⟩) (fun e he => ⟨hparams e he, trivial⟩) e he).1

/-- The entries with keys that are not accepted. -/
def strange (family : Family) (params : Dict) : Dict :=
  params.filter fun e => !family.accepted.any fun a => e.1.asText? = some a

theorem mem_strange {e : Value × Value} :
    e ∈ family.strange params ↔ e ∈ params ∧ ¬ family.Accepts e.1 := by
  simp [strange, Accepts]

theorem mapM_printed (contents : Nat → Bytes) {d : Dict} (h : ∀ e ∈ d, e.1.isWritable = true) :
    d.mapM (fun e => e.1.printed contents) = .ok (d.map fun e => e.1.display contents) := by
  induction d with
  | nil => rfl
  | cons e rest ih =>
    obtain ⟨he, hrest⟩ := List.forall_mem_cons.1 h
    rw [List.mapM_cons, ih hrest, Value.printed, if_pos he]
    rfl

/-- The keys that are not accepted, as a refusal lists them. -/
theorem unknownKeys_eq (h : ∀ e ∈ params, e.1.isWritable = true) :
    unknownKeys contents family.accepted params =
      .ok (((family.strange params).map fun e => e.1.display contents).mergeSort
        fun a b => decide (a ≤ b)) := by
  have hmap := mapM_printed contents (d := family.strange params) fun e he =>
    h e (mem_strange.1 he).1
  show (family.strange params).mapM (fun e => e.1.printed contents) >>= _ = _
  rw [hmap]
  rfl

theorem checkKeys_of_accepted (contents : Nat → Bytes) (h : ∀ e ∈ params, e.1.isWritable = true)
    (haccepted : ∀ e ∈ params, family.Accepts e.1) : checkKeys contents family params = .ok () := by
  have hnone : family.strange params = [] :=
    List.eq_nil_iff_forall_not_mem.2 fun e he =>
      (mem_strange.1 he).2 (haccepted e (mem_strange.1 he).1)
  rw [checkKeys, unknownKeys_eq h, hnone, List.map_nil, List.mergeSort_nil]
  rfl

/-- **One key that is not accepted is enough**, whatever its value and the others are. -/
theorem checkKeys_of_not_accepted (contents : Nat → Bytes) (h : ∀ e ∈ params, e.1.isWritable = true)
    {e : Value × Value} (he : e ∈ params) (hstrange : ¬ family.Accepts e.1) :
    ∃ names, checkKeys contents family params =
      .error (.unusable (.unknownParameters names family.accepted) (some family.name)) := by
  rw [checkKeys, unknownKeys_eq h]
  refine ⟨_, if_neg ?_⟩
  have hmem := mem_strange.2 ⟨he, hstrange⟩
  rw [List.isEmpty_iff, ← List.length_eq_zero_iff, List.length_mergeSort, List.length_map,
    List.length_eq_zero_iff]
  intro hnil
  rw [hnil] at hmem
  cases hmem

end Family

/-! ## Parameter dictionaries -/

/-- The value can be written in a message, and has an encoding if it is a text. -/
structure Value.IsLegible (v : Value) : Prop where
  writable : v.isWritable = true
  encoded : ∀ text, v = .text text → ∃ bs, Text.Utf8.ofString text = .ok bs

namespace Dict

/-- A parameter dictionary as a caller can give it, if all that is in it has a text. -/
structure IsGiven (params : Dict) (s : Store) : Prop where
  distinct : params.IsDistinct
  keys : ∀ e ∈ params, e.1.isWritable = true
  values : ∀ e ∈ params, e.2.IsLegible
  /-- The generators are in the store. -/
  live : ∀ e ∈ params, ∀ kind ref, e.2 = .generator kind ref → ref < s.generators.length

variable {d : Dict}

theorem isLegible_get (h : ∀ e ∈ d, e.2.IsLegible) (key : String) : (Dict.get d key).IsLegible := by
  rcases get_cases d key with hnull | ⟨e, he, heq⟩
  · rw [hnull]
    exact ⟨rfl, fun text htext => by cases htext⟩
  · rw [← heq]
    exact h e he

end Dict

/-! ## Fields -/

namespace Transform

/-- What the values of the fields may be. A generator is one of the store. -/
inductive IsField (s : Store) : String → Value → Prop
  | second (bs : Bytes) : IsField s "second" (.bytes bs)
  | mode (m : Mode) : IsField s "mode" (.mode m)
  | direction (d : Direction) : IsField s "direction" (.direction d)
  | shiftCount (n : Int) : IsField s "shift_count" (.int n)
  | offset (n : Int) : IsField s "offset" (.int n)
  | length (n : Int) : IsField s "length" (.int n)
  | newSize (n : Int) : IsField s "new_size" (.int n)
  | noComparator : IsField s "comparator" .null
  | comparator (c : Comparator) : IsField s "comparator" (.comparator c)
  | rng (kind : GeneratorKind) (ref : Nat) (live : ref < s.generators.length) :
    IsField s "rng" (.generator kind ref)

/-- The transform is of the kind, and has a value that may be there in each field of its
constructor. -/
structure IsWellFormed (k : Kind) (s : Store) (t : Transform) : Prop where
  kind : t.kind? = some k
  names : t.fields.map (·.1) = k.parameters.map fun p => .text p.name
  values : ∀ name v, (.text name, v) ∈ t.fields → IsField s name v

theorem isWellFormed_of_kind? {k : Kind} {s : Store} {t : Transform} (h : t.kind? = some k)
    (hlive : ∀ kind ref, t = .shuffle kind ref → ref < s.generators.length) :
    t.IsWellFormed k s := by
  refine ⟨h, ?_, ?_⟩
  · cases t <;> cases h <;> rfl
  · intro name v hmem
    cases t with
    | bitwise second mode =>
      rcases List.mem_cons.1 hmem with heq | hmem
      · cases heq
        exact .second second
      · cases List.mem_singleton.1 hmem
        exact .mode mode
    | negate => cases hmem
    | shift count direction =>
      rcases List.mem_cons.1 hmem with heq | hmem
      · cases heq
        exact .shiftCount count
      · cases List.mem_singleton.1 hmem
        exact .direction direction
    | concat second =>
      cases List.mem_singleton.1 hmem
      exact .second second
    | reverse => cases hmem
    | sort comparator =>
      cases List.mem_singleton.1 hmem
      cases comparator with
      | none => exact .noComparator
      | some c => exact .comparator c
    | shuffle kind ref =>
      cases List.mem_singleton.1 hmem
      exact .rng kind ref (hlive kind ref rfl)
    | copy offset length =>
      rcases List.mem_cons.1 hmem with heq | hmem
      · cases heq
        exact .offset offset
      · cases List.mem_singleton.1 hmem
        exact .length length
    | resize size =>
      cases List.mem_singleton.1 hmem
      exact .newSize size
    | added p values => cases h

end Transform

/-! ## Families -/

namespace Family

variable {k : Kind} {params : Dict} {s s' : Store} {fault : Fault}

/-- Nothing but a parameter is refused of values that have a text, if there is a seed. -/
theorem blames_isObjection (hkeys : ∀ e ∈ params, e.1.isWritable = true)
    (hvalues : ∀ e ∈ params, e.2.IsLegible) (h : ¬ (k = .shuffle ∧ params.LacksSeed)) :
    Blames Fault.IsObjection k params where
  keys e he := Or.inl (hkeys e he)
  values e he := Or.inl (hvalues e he).writable
  halves text cause hseed hencoded := by
    obtain ⟨bs, hbs⟩ := (Dict.isLegible_get hvalues "seed").encoded text hseed
    rw [hbs] at hencoded
    cases hencoded
  seed hkind hlacks := absurd ⟨hkind, hlacks⟩ h

/-- A shuffle refuses what seeds nothing. -/
theorem outcome_ofParams_of_lacksSeed (s : Store) (hkeys : ∀ e ∈ params, e.1.isWritable = true)
    (haccepted : ∀ e ∈ params, (builtin .shuffle).Accepts e.1) (h : params.LacksSeed) :
    ((builtin .shuffle).ofParams params).outcome s = (.error (.wrongKind .seed), s) := by
  obtain ⟨hrng, hseed, hkind⟩ := h
  have hcheck := checkKeys_of_accepted s.bytes hkeys haccepted
  have hrefused := Random.seedOf_of_not_isSeed s.bytes hkind hseed
  simp only [ofParams, shuffleOf, Action.outcome_bind, Action.outcome_reading, hcheck, hrng, hseed,
    Bool.not_true, Bool.false_eq_true, if_false, hrefused]

/-- A shuffle draws from a generator of the store: the one that is given, or a new one. -/
theorem live_of_shuffleOf {kind : GeneratorKind} {ref : Nat}
    (hlive : ∀ kind ref, Dict.get params "rng" = .generator kind ref → ref < s.generators.length)
    (h : (shuffleOf params).outcome s = (.ok (.shuffle kind ref), s')) :
    ref < s'.generators.length := by
  simp only [shuffleOf] at h
  split at h
  · obtain ⟨hmade, rfl⟩ := Action.ok_of_outcome_reading h
    unfold Transform.makeShuffle at hmade
    split at hmade
    · cases hmade
    · rename_i hrng
      cases hmade
      exact hlive kind ref hrng
    · cases hmade
  split at h
  · cases h
  obtain ⟨n, s₁, -, h⟩ := Action.ok_of_outcome_bind h
  simp only [Action.outcome_bind, Action.outcome_get, Action.outcome_set, Action.outcome_pure,
    Store.addGenerator, Prod.mk.injEq, Except.ok.injEq, Transform.shuffle.injEq] at h
  obtain ⟨⟨-, rfl⟩, rfl⟩ := h
  simp

/-- A family of this library makes well-formed transforms. -/
theorem isWellFormed_of_ofParams {t : Transform}
    (hlive : k = .shuffle → ∀ kind ref, Dict.get params "rng" = .generator kind ref →
      ref < s.generators.length)
    (h : ((builtin k).ofParams params).outcome s = (.ok t, s')) : t.IsWellFormed k s' := by
  have hkind := kind?_of_ofParams h
  refine Transform.isWellFormed_of_kind? hkind fun kind ref ht => ?_
  subst ht
  cases hkind
  obtain ⟨_, s₁, hcheck, hmade⟩ := Action.ok_of_outcome_bind h
  obtain ⟨-, rfl⟩ := Action.ok_of_outcome_reading hcheck
  exact live_of_shuffleOf (hlive rfl) hmade

end Family

/-! ## Names -/

namespace Registry

/-- The parameters of a call are set over the defaults. -/
theorem update_dict (contents : Nat → Bytes) (d params : Dict) :
    Dict.update contents d (.dict params) = .ok (Dict.putAll d params) := by
  cases params <;> rfl

theorem lookup_text (r : Registry) (contents : Nat → Bytes) (name : String) :
    r.lookup contents (.text name) =
      match r.find? name with
      | some entry => .ok entry
      | none => .error (.unknownTransform (.text name) name) := by
  have hfound : (Value.text name).asText?.bind r.find? = r.find? name := rfl
  rw [lookup, hfound]
  cases r.find? name <;> rfl

/-- **A name that is registered builds from the parameters over its defaults.** -/
theorem outcome_build (r : Registry) (name : String) (params : Dict) (s : Store) :
    (r.build (.text name) (.dict params)).outcome s =
      match r.find? name with
      | some entry => (entry.family.ofParams (Dict.putAll entry.defaults params)).outcome s
      | none => (.error (.unknownTransform (.text name) name), s) := by
  simp only [build, Action.outcome_bind, Action.outcome_reading, lookup_text, update_dict]
  cases r.find? name <;> rfl

/-- A name of this library: its defaults are such as a caller can give. -/
structure IsSound (entry : Registration) (k : Kind) : Prop where
  family : entry.family = .builtin k
  shuffle_iff : k = .shuffle ↔ entry.name = "shuffle"
  defaults_shuffle : k = .shuffle → entry.defaults = []
  accepted : ∀ e ∈ entry.defaults, (Family.builtin k).Accepts e.1
  keys : ∀ e ∈ entry.defaults, e.1.isWritable = true
  values : ∀ e ∈ entry.defaults, e.2.IsLegible

theorem isSound_nil {name : String} {k : Kind} (hname : k = .shuffle ↔ name = "shuffle") :
    IsSound ⟨name, .builtin k, []⟩ k where
  family := rfl
  shuffle_iff := hname
  defaults_shuffle _ := rfl
  accepted := by simp
  keys := by simp
  values := by simp

/-- A name with a text as its one default. -/
theorem isSound_text {name key text : String} {k : Kind} (hkind : k ≠ .shuffle)
    (hname : name ≠ "shuffle") (hkey : key ∈ k.accepted)
    (hencoded : ∃ bs, Text.Utf8.ofString text = .ok bs) :
    IsSound ⟨name, .builtin k, [(.text key, .text text)]⟩ k where
  family := rfl
  shuffle_iff := iff_of_false hkind hname
  defaults_shuffle h := absurd h hkind
  accepted := List.forall_mem_singleton.2 ⟨key, hkey, rfl⟩
  keys := List.forall_mem_singleton.2 rfl
  values := by
    refine List.forall_mem_singleton.2 ⟨rfl, ?_⟩
    rintro _ ⟨⟩
    exact hencoded

theorem exists_isSound {entry : Registration} (h : entry ∈ builtin) : ∃ k, IsSound entry k := by
  simp only [builtin, List.mem_cons, List.not_mem_nil, or_false] at h
  rcases h with rfl | rfl | rfl | rfl | rfl | rfl | rfl | rfl | rfl | rfl | rfl | rfl
  · exact ⟨.bitwise, isSound_text (by decide) (by decide) (by decide) ⟨_, rfl⟩⟩
  · exact ⟨.bitwise, isSound_text (by decide) (by decide) (by decide) ⟨_, rfl⟩⟩
  · exact ⟨.bitwise, isSound_text (by decide) (by decide) (by decide) ⟨_, rfl⟩⟩
  · exact ⟨.negate, isSound_nil (by decide)⟩
  · exact ⟨.shift, isSound_text (by decide) (by decide) (by decide) ⟨_, rfl⟩⟩
  · exact ⟨.shift, isSound_text (by decide) (by decide) (by decide) ⟨_, rfl⟩⟩
  · exact ⟨.concat, isSound_nil (by decide)⟩
  · exact ⟨.reverse, isSound_nil (by decide)⟩
  · exact ⟨.sort, isSound_nil (by decide)⟩
  · exact ⟨.shuffle, isSound_nil (by decide)⟩
  · exact ⟨.copy, isSound_nil (by decide)⟩
  · exact ⟨.resize, isSound_nil (by decide)⟩

theorem find?_of_mem {entry : Registration} (h : entry ∈ builtin) :
    builtin.find? entry.name = some entry := by
  simp only [builtin, List.mem_cons, List.not_mem_nil, or_false] at h
  rcases h with rfl | rfl | rfl | rfl | rfl | rfl | rfl | rfl | rfl | rfl | rfl | rfl <;> rfl

theorem find?_eq_none_iff (r : Registry) (name : String) :
    r.find? name = none ↔ name ∉ r.names := by
  simp [find?, names]

/-! ## Building -/

section

variable {s : Store} {params : Dict} {entry : Registration} {k : Kind}

/-- Parameters over defaults are such as a caller can give. -/
theorem legible_putAll (h : params.IsGiven s) (hentry : IsSound entry k) :
    ∀ e ∈ Dict.putAll entry.defaults params, e.1.isWritable = true ∧ e.2.IsLegible :=
  Dict.forall_mem_putAll (P := fun key => key.isWritable = true) (Q := Value.IsLegible)
    (fun e he => ⟨hentry.keys e he, hentry.values e he⟩) fun e he => ⟨h.keys e he, h.values e he⟩

/-- The keys over the defaults are accepted just if those that are given are. -/
theorem accepts_putAll_iff (hentry : IsSound entry k) :
    (∀ e ∈ Dict.putAll entry.defaults params, (Family.builtin k).Accepts e.1) ↔
      ∀ e ∈ params, (Family.builtin k).Accepts e.1 := by
  constructor
  · intro hall e he
    obtain ⟨e', he', htext⟩ := Dict.exists_mem_putAll (d := entry.defaults) (Or.inr he)
    exact (Family.accepts_congr htext).1 (hall e' he')
  · intro hall
    exact Family.accepts_putAll hentry.accepted hall

/-- A shuffle has no defaults. -/
theorem get_putAll_shuffle (h : params.IsGiven s) (hentry : IsSound entry .shuffle) (key : String) :
    Dict.get (Dict.putAll entry.defaults params) key = Dict.get params key := by
  rw [hentry.defaults_shuffle rfl, Dict.get, Dict.get?_putAll h.distinct, Dict.get?_nil,
    Option.or_none]
  rfl

theorem lacksSeed_putAll_iff (h : params.IsGiven s) (hentry : IsSound entry k) :
    (k = .shuffle ∧ (Dict.putAll entry.defaults params).LacksSeed) ↔
      (k = .shuffle ∧ params.LacksSeed) := by
  refine and_congr_right ?_
  rintro rfl
  simp only [Dict.LacksSeed, get_putAll_shuffle h hentry]

/-- A key that is not accepted is refused, whatever else is wrong. -/
theorem outcome_build_of_not_accepts (h : params.IsGiven s) (hmem : entry ∈ builtin)
    (hstrange : ∃ e ∈ params, ¬ entry.family.Accepts e.1) :
    ∃ names, ((builtin.build (.text entry.name) (.dict params)).outcome s).1 =
      .error (.unusable (.unknownParameters names entry.family.accepted)
        (some entry.family.name)) := by
  obtain ⟨k, hentry⟩ := exists_isSound hmem
  rw [outcome_build, find?_of_mem hmem]
  simp only [hentry.family] at hstrange ⊢
  obtain ⟨e, he, hnot⟩ := hstrange
  obtain ⟨e', he', htext⟩ := Dict.exists_mem_putAll (d := entry.defaults) (Or.inr he)
  obtain ⟨names, hcheck⟩ := Family.checkKeys_of_not_accepted s.bytes
    (fun e he => (legible_putAll h hentry e he).1) he' (mt (Family.accepts_congr htext).1 hnot)
  refine ⟨names, ?_⟩
  simp only [Family.ofParams, Action.outcome_bind, Action.outcome_reading, hcheck]

theorem family_of_shuffle (hmem : entry ∈ builtin) (h : entry.name = "shuffle") :
    entry.family = .builtin .shuffle := by
  obtain ⟨k, hentry⟩ := exists_isSound hmem
  rw [hentry.family, hentry.shuffle_iff.2 h]

/-- A seed that seeds nothing is refused, or else a parameter may be. -/
theorem outcome_build_cases (h : params.IsGiven s) (hmem : entry ∈ builtin) :
    let x := (builtin.build (.text entry.name) (.dict params)).outcome s
    let lacks := entry.name = "shuffle" ∧ (∀ e ∈ params, (Family.builtin .shuffle).Accepts e.1) ∧
      params.LacksSeed
    lacks ∧ x.1 = .error (.wrongKind .seed) ∨ ¬ lacks ∧ Only Fault.IsObjection x.1 := by
  dsimp only
  by_cases haccepted : ∀ e ∈ params, entry.family.Accepts e.1
  · obtain ⟨k, hentry⟩ := exists_isSound hmem
    have hlegible := legible_putAll h hentry
    have hlacks := lacksSeed_putAll_iff h hentry
    rw [hentry.family] at haccepted
    rw [outcome_build, find?_of_mem hmem]
    simp only [hentry.family, ← hentry.shuffle_iff]
    by_cases hseed : k = .shuffle ∧ (Dict.putAll entry.defaults params).LacksSeed
    · obtain ⟨rfl, hparams⟩ := hlacks.1 hseed
      refine Or.inl ⟨⟨rfl, haccepted, hparams⟩, ?_⟩
      rw [Family.outcome_ofParams_of_lacksSeed s (fun e he => (hlegible e he).1)
        ((accepts_putAll_iff hentry).2 haccepted) hseed.2]
    · have hblames := Family.blames_isObjection (fun e he => (hlegible e he).1)
        (fun e he => (hlegible e he).2) hseed
      exact Or.inr ⟨fun hasked => hseed (hlacks.2 ⟨hasked.1, hasked.2.2⟩),
        Family.only_ofParams (fun _ => id) hblames s⟩
  · have hstrange : ∃ e ∈ params, ¬ entry.family.Accepts e.1 := by simpa using haccepted
    obtain ⟨names, hrefused⟩ := outcome_build_of_not_accepts h hmem hstrange
    refine Or.inr ⟨fun hasked => haccepted ?_, ?_⟩
    · rw [family_of_shuffle hmem hasked.1]
      exact hasked.2.1
    · rw [hrefused]
      exact only_error (Fault.isObjection_unusable _ _)

/-- What is built is well formed. -/
theorem isWellFormed_of_build (h : params.IsGiven s) (hmem : entry ∈ builtin) {t : Transform}
    {s' : Store} (hrun : (builtin.build (.text entry.name) (.dict params)).outcome s
      = (.ok t, s')) :
    ∃ k, entry.family = .builtin k ∧ t.IsWellFormed k s' := by
  obtain ⟨k, hentry⟩ := exists_isSound hmem
  rw [outcome_build, find?_of_mem hmem] at hrun
  simp only [hentry.family] at hrun
  refine ⟨k, hentry.family, Family.isWellFormed_of_ofParams ?_ hrun⟩
  rintro rfl kind ref hrng
  rw [get_putAll_shuffle h hentry] at hrng
  rcases Dict.get_cases params "rng" with hnull | ⟨e, he, heq⟩
  · rw [hnull] at hrng
    cases hrng
  · exact h.live e he kind ref (heq.trans hrng)

/-- **What building gives.** From a parameter dictionary all of whose keys and values have a text,
building gives a well-formed transform, or it refuses the name, just if that is not registered, or
it refuses a parameter. A seed of a kind that seeds nothing is refused as a value of the wrong kind,
just if a shuffle is asked for with accepted keys and without a generator. A key that is not
accepted decides before everything else. -/
theorem build_sound (h : params.IsGiven s) (name : String) :
    let x := (builtin.build (.text name) (.dict params)).outcome s
    (∀ t, x.1 = .ok t →
      ∃ entry ∈ builtin, entry.name = name ∧ ∃ k, entry.family = .builtin k ∧
        t.IsWellFormed k x.2) ∧
    (x.1 = .error (.unknownTransform (.text name) name) ↔ name ∉ builtin.names) ∧
    (x.1 = .error (.wrongKind .seed) ↔
      name = "shuffle" ∧ (∀ e ∈ params, (Family.builtin .shuffle).Accepts e.1) ∧ params.LacksSeed) ∧
    (∀ fault, x.1 = .error fault →
      fault = .unknownTransform (.text name) name ∨ fault = .wrongKind .seed ∨ fault.IsObjection) ∧
    ∀ entry ∈ builtin, entry.name = name → (∃ e ∈ params, ¬ entry.family.Accepts e.1) →
      ∃ names, x.1 =
        .error (.unusable (.unknownParameters names entry.family.accepted)
          (some entry.family.name)) := by
  dsimp only
  by_cases hname : name ∈ builtin.names
  · obtain ⟨entry, hmem, rfl⟩ := List.mem_map.1 hname
    refine ⟨fun t ht => ⟨entry, hmem, rfl, isWellFormed_of_build h hmem (Prod.ext ht rfl)⟩, ?_⟩
    rw [← and_assoc, ← and_assoc]
    refine ⟨?_, fun other hother heq hstrange => ?_⟩
    · rcases outcome_build_cases h hmem with ⟨hlacks, hseed⟩ | ⟨hlacks, hobjects⟩
      · rw [hseed]
        refine ⟨⟨iff_of_false nofun (not_not_intro hname), iff_of_true rfl hlacks⟩, ?_⟩
        rintro _ ⟨⟩
        exact Or.inr (Or.inl rfl)
      · refine ⟨⟨iff_of_false ?_ (not_not_intro hname), iff_of_false ?_ hlacks⟩, ?_⟩
        · intro hfault
          rcases hobjects _ hfault with ⟨_, _, ⟨⟩⟩ | ⟨_, _, ⟨⟩⟩
        · intro hfault
          rcases hobjects _ hfault with ⟨_, _, ⟨⟩⟩ | ⟨_, _, ⟨⟩⟩
        · exact fun fault hfault => Or.inr (Or.inr (hobjects fault hfault))
    · rw [← heq]
      exact outcome_build_of_not_accepts h hother hstrange
  · have hfind := (find?_eq_none_iff builtin name).2 hname
    rw [outcome_build, hfind]
    refine ⟨nofun, iff_of_true rfl hname, ?_, ?_, ?_⟩
    · refine iff_of_false nofun fun hshuffle => hname ?_
      rw [hshuffle.1]
      decide
    · rintro _ ⟨⟩
      exact Or.inl rfl
    · rintro entry hmem rfl
      exact absurd (List.mem_map_of_mem hmem) hname

end

/-- A list as a seed. -/
def listedSeed : Dict := [(.text "seed", .list [.int 1])]

/-- A mode that is none, without a second buffer, and a key that is no text. -/
def strangeKey : Dict := [(.text "mode", .int 5), (.int 7, .null)]

theorem isGiven_listedSeed : listedSeed.IsGiven .empty where
  distinct := List.pairwise_singleton _ _
  keys := List.forall_mem_singleton.2 rfl
  values := List.forall_mem_singleton.2 ⟨by decide +kernel, nofun⟩
  live := List.forall_mem_singleton.2 nofun

theorem isGiven_strangeKey : strangeKey.IsGiven .empty where
  distinct := by
    have htext : (Value.text "mode").asText? = some "mode" := rfl
    exact List.pairwise_pair.2 (Value.same_eq_of_asText? htext)
  keys := by decide +kernel
  values := by
    refine List.forall_mem_cons.2 ⟨⟨by decide +kernel, nofun⟩, ?_⟩
    exact List.forall_mem_singleton.2 ⟨rfl, nofun⟩
  live := List.forall_mem_cons.2 ⟨nofun, List.forall_mem_singleton.2 nofun⟩

/-- A shuffle cannot be seeded with a list. Of several things that are wrong, a key that is not
accepted counts. A name in upper case is not registered. -/
theorem build_sound_refused :
    ((builtin.build (.text "shuffle") (.dict listedSeed)).outcome .empty).1
      = .error (.wrongKind .seed) ∧
      (∃ names, ((builtin.build (.text "xor") (.dict strangeKey)).outcome .empty).1 =
        .error (.unusable (.unknownParameters names ["second", "mode"]) (some "bitwise"))) ∧
      ((builtin.build (.text "XOR") (.dict strangeKey)).outcome .empty).1 =
        .error (.unknownTransform (.text "XOR") "XOR") := by
  obtain ⟨-, -, hseed, -, -⟩ := build_sound isGiven_listedSeed "shuffle"
  obtain ⟨-, -, -, -, hstrange⟩ := build_sound isGiven_strangeKey "xor"
  obtain ⟨-, hunknown, -⟩ := build_sound isGiven_strangeKey "XOR"
  refine ⟨hseed.2 ⟨rfl, ?_, ?_⟩, ?_, hunknown.2 (by decide)⟩
  · exact List.forall_mem_singleton.2 ⟨"seed", by decide, rfl⟩
  · have hget : Dict.get listedSeed "seed" = .list [.int 1] := by
      simp [Dict.get, listedSeed, Dict.get?_cons, Value.asText?]
    have hrng : Dict.get listedSeed "rng" = .null := by
      simp [Dict.get, listedSeed, Dict.get?_cons, Value.asText?]
    rw [Dict.LacksSeed, hget, hrng]
    exact ⟨rfl, rfl, id⟩
  · refine hstrange ⟨"xor", .builtin .bitwise, [(.text "mode", .text "xor")]⟩
      (by simp [builtin, Mode.word]) rfl ⟨(.int 7, .null), by simp [strangeKey], ?_⟩
    rintro ⟨a, -, ⟨⟩⟩

end Registry

end Octets
