import Octets.Proofs.Command.Merging
import Octets.Proofs.Registry.Soundness

/-!
# Which values transforms are made with

Several keys may name one parameter of a transform, and then the family decides which of them
counts. It does not matter where they come from: a key in the configuration hides an option for the
other key.

* `Family.takes_of_ofParams` — a family makes its transform with the value of every key that is not
  hidden, kind by kind.
* `Family.ofParams_of_hidden` — the value of a hidden key makes no difference.
* `forall₂_of_build` — a pipeline is built step by step.
* `options_taken` — what becomes of the options that are set in the steps of a pipeline.
-/

namespace Octets

/-! ## Parameters of transforms -/

namespace Transform

variable {contents : Nat → Bytes} {t : Transform}
  {v second mode count direction comparator rng offset length size : Value} {n : Int}

/-- The transform has been made with the value for the parameter that the key names. -/
inductive Takes (s : Store) : Transform → String → Value → Prop
  | second {bs : Bytes} {m : Mode} {v : Value} (h : v.parse s.bytes "second" = .ok bs) :
    Takes s (.bitwise bs m) "second" v
  | mode {bs : Bytes} {m : Mode} {v : Value} (h : v.asText? = some m.word) :
    Takes s (.bitwise bs m) "mode" v
  | count {d : Direction} {key : String} (n : Int) (h : key = "count" ∨ key = "shift_count") :
    Takes s (.shift n d) key (.int n)
  | direction {n : Int} {d : Direction} {v : Value} (h : v.asText? = some d.word) :
    Takes s (.shift n d) "direction" v
  | appended {bs : Bytes} {v : Value} (h : v.parse s.bytes "second" = .ok bs) :
    Takes s (.concat bs) "second" v
  | noComparator : Takes s (.sort none) "comparator" .null
  | comparator (c : Comparator) : Takes s (.sort (some c)) "comparator" (.comparator c)
  | descending (v : Value) :
    Takes s (.sort (if v.holds s.bytes then some .descending else none)) "descending" v
  /-- No generator is given, so the shuffle has one of its own. -/
  | noGenerator (ref : Nat) : Takes s (.shuffle .twister ref) "rng" .null
  | generator (kind : GeneratorKind) (ref : Nat) :
    Takes s (.shuffle kind ref) "rng" (.generator kind ref)
  | seed {n ref : Nat} {v : Value} (h : Random.seedOf s.bytes v = .ok n)
    (hseeded : s.generators[ref]? = some (.ofSeed n)) : Takes s (.shuffle .twister ref) "seed" v
  | offset {length : Int} (n : Int) : Takes s (.copy n length) "offset" (.int n)
  | length {offset : Int} (n : Int) : Takes s (.copy offset n) "length" (.int n)
  | size {key : String} (n : Int) (h : key = "size" ∨ key = "new_size") :
    Takes s (.resize n) key (.int n)

theorem Takes.of_extends {s s' : Store} {key : String} (h : Takes s t key v) (hext : s.Extends s') :
    Takes s' t key v := by
  cases h with
  | second h => exact .second (by rwa [hext.bytes])
  | mode h => exact .mode h
  | count n h => exact .count n h
  | direction h => exact .direction h
  | appended h => exact .appended (by rwa [hext.bytes])
  | noComparator => exact .noComparator
  | comparator c => exact .comparator c
  | descending v =>
    rw [← hext.bytes]
    exact .descending v
  | noGenerator ref => exact .noGenerator ref
  | generator kind ref => exact .generator kind ref
  | seed h hseeded =>
    refine .seed (by rwa [hext.bytes]) ?_
    obtain ⟨hlt, -⟩ := List.getElem?_eq_some_iff.1 hseeded
    obtain ⟨gs, rfl⟩ := hext
    exact (List.getElem?_append_left hlt).trans hseeded
  | offset n => exact .offset n
  | length n => exact .length n
  | size n h => exact .size n h

/-! ### Checked values -/

theorem asText?_of_toMode {m : Mode} (h : toMode contents v = .ok m) : v.asText? = some m.word := by
  unfold toMode at h
  split at h
  · rename_i hfind
    cases h
    simpa using List.find?_some hfind
  · obtain ⟨_, -, h⟩ := ok_of_bind h
    cases h

theorem asText?_of_toDirection {d : Direction} (h : toDirection contents v = .ok d) :
    v.asText? = some d.word := by
  unfold toDirection at h
  split at h
  · rename_i hfind
    cases h
    simpa using List.find?_some hfind
  · obtain ⟨_, -, h⟩ := ok_of_bind h
    cases h

theorem eq_int_of_toInteger {field transform : String}
    (h : toInteger contents field transform v = .ok n) : v = .int n := by
  unfold toInteger at h
  split at h
  · rename_i hint
    cases h
    cases v <;> cases hint
    rfl
  · obtain ⟨_, -, h⟩ := ok_of_bind h
    cases h

theorem exists_of_makeBitwise (h : makeBitwise contents second mode = .ok t) :
    ∃ bs m, t = .bitwise bs m ∧ second.parse contents "second" = .ok bs ∧
      mode.asText? = some m.word := by
  obtain ⟨_, -, h⟩ := ok_of_bind h
  obtain ⟨_, -, h⟩ := ok_of_bind h
  obtain ⟨m, hmode, h⟩ := ok_of_bind h
  obtain ⟨bs, hsecond, h⟩ := ok_of_bind h
  cases h
  exact ⟨bs, m, rfl, hsecond, asText?_of_toMode hmode⟩

theorem exists_of_makeShift (h : makeShift contents count direction = .ok t) :
    ∃ n d, t = .shift n d ∧ count = .int n ∧ direction.asText? = some d.word := by
  obtain ⟨_, -, h⟩ := ok_of_bind h
  obtain ⟨_, -, h⟩ := ok_of_bind h
  obtain ⟨n, hcount, h⟩ := ok_of_bind h
  obtain ⟨d, hdirection, h⟩ := ok_of_bind h
  cases h
  exact ⟨n, d, rfl, eq_int_of_toInteger hcount, asText?_of_toDirection hdirection⟩

theorem exists_of_makeConcat (h : makeConcat contents second = .ok t) :
    ∃ bs, t = .concat bs ∧ second.parse contents "second" = .ok bs := by
  obtain ⟨_, -, h⟩ := ok_of_bind h
  obtain ⟨bs, hsecond, h⟩ := ok_of_bind h
  cases h
  exact ⟨bs, rfl, hsecond⟩

theorem exists_of_makeCopy (h : makeCopy contents offset length = .ok t) :
    ∃ m n, t = .copy m n ∧ offset = .int m ∧ length = .int n := by
  obtain ⟨_, -, h⟩ := ok_of_bind h
  obtain ⟨m, hoffset, h⟩ := ok_of_bind h
  obtain ⟨_, -, h⟩ := ok_of_bind h
  obtain ⟨n, hlength, h⟩ := ok_of_bind h
  cases h
  exact ⟨m, n, rfl, eq_int_of_toInteger hoffset, eq_int_of_toInteger hlength⟩

theorem exists_of_makeResize (h : makeResize contents size = .ok t) :
    ∃ n, t = .resize n ∧ size = .int n := by
  obtain ⟨_, -, h⟩ := ok_of_bind h
  obtain ⟨n, hsize, h⟩ := ok_of_bind h
  cases h
  exact ⟨n, rfl, eq_int_of_toInteger hsize⟩

theorem takes_of_makeSort (s : Store) (h : makeSort comparator = .ok t) :
    t.Takes s "comparator" comparator := by
  unfold makeSort at h
  split at h
  · cases h
    exact .noComparator
  · cases h
    exact .comparator _
  · cases h

theorem takes_of_makeShuffle (s : Store) (h : makeShuffle rng = .ok t) : t.Takes s "rng" rng := by
  unfold makeShuffle at h
  split at h
  · cases h
  · cases h
    exact .generator _ _
  · cases h

end Transform

/-! ## Hidden keys -/

/-- The value at the key does not count, because of another key for the same parameter: by that it
is there, or, for the generator of a shuffle, that it is not null. -/
inductive Hidden (value? : String → Option Value) : String → Prop
  | count (h : (value? "shift_count").isSome = true) : Hidden value? "count"
  | size (h : (value? "new_size").isSome = true) : Hidden value? "size"
  | descending (h : (value? "comparator").isSome = true) : Hidden value? "descending"
  | seed {v : Value} (h : value? "rng" = some v) (hv : v.isNull = false) : Hidden value? "seed"

namespace Hidden

variable {f g rest : String → Option Value} {key : String}

theorem isSome_of_size (h : Hidden f "size") : (f "new_size").isSome = true := by
  generalize hkey : "size" = key at h
  cases h with
  | size h => exact h
  | _ => simp at hkey

theorem mono (h : Hidden f key) (hmore : ∀ key v, f key = some v → g key = some v) :
    Hidden g key := by
  have hsome : ∀ key, (f key).isSome = true → (g key).isSome = true := fun key hkey => by
    obtain ⟨v, hv⟩ := Option.isSome_iff_exists.1 hkey
    rw [hmore key v hv]
    rfl
  cases h with
  | count h => exact .count (hsome _ h)
  | size h => exact .size (hsome _ h)
  | descending h => exact .descending (hsome _ h)
  | seed h hv => exact .seed (hmore _ _ h) hv

/-- The keys that hide others are not looked for elsewhere, if they are not there. -/
theorem of_or (h : Hidden (fun key => (f key).or (rest key)) key)
    (hrest : ∀ key ∈ ["shift_count", "new_size", "comparator", "rng"], rest key = none) :
    Hidden f key := by
  have hf : ∀ key ∈ ["shift_count", "new_size", "comparator", "rng"],
      (f key).or (rest key) = f key :=
    fun key hkey => by rw [hrest key hkey, Option.or_none]
  cases h with
  | count h => exact .count (by rwa [hf _ (by decide)] at h)
  | size h => exact .size (by rwa [hf _ (by decide)] at h)
  | descending h => exact .descending (by rwa [hf _ (by decide)] at h)
  | seed h hv => exact .seed (by rwa [hf _ (by decide)] at h) hv

end Hidden

namespace Family

variable {family : Family} {k : Kind} {contents : Nat → Bytes} {params params' : Dict}
  {s s' : Store}
  {t : Transform} {key : String} {v : Value}

/-- Parameters that pass the check have no keys but accepted ones. -/
theorem accepts_of_checkKeys (h : checkKeys contents family params = .ok ()) :
    ∀ e ∈ params, family.Accepts e.1 := by
  obtain ⟨unknown, hunknown, h⟩ := ok_of_bind h
  obtain ⟨names, hnames, hsorted⟩ := ok_of_bind hunknown
  have hempty : names = [] := by
    cases hsorted
    split at h
    · rename_i hnil
      rw [List.isEmpty_iff, ← List.length_eq_zero_iff, List.length_mergeSort] at hnil
      exact List.length_eq_zero_iff.1 hnil
    · cases h
  intro e he
  by_contra hstrange
  have hmem : e ∈ family.strange params := mem_strange.2 ⟨he, hstrange⟩
  change (family.strange params).mapM (fun e => e.1.printed contents) = .ok names at hnames
  cases hlist : family.strange params with
  | nil =>
    rw [hlist] at hmem
    cases hmem
  | cons first rest =>
    rw [hlist, List.mapM_cons, hempty] at hnames
    obtain ⟨_, -, hnames⟩ := ok_of_bind hnames
    obtain ⟨_, -, hnames⟩ := ok_of_bind hnames
    cases hnames

theorem mem_accepted_of_ofParams (h : (family.ofParams params).outcome s = (.ok t, s'))
    (hget : Dict.get? params key = some v) : key ∈ family.accepted := by
  obtain ⟨⟨⟩, _, hcheck, -⟩ := Action.ok_of_outcome_bind h
  obtain ⟨e, he, hkey⟩ := Dict.exists_key_of_get? hget
  obtain ⟨a, ha, htext⟩ := accepts_of_checkKeys (Action.ok_of_outcome_reading hcheck).1 e he
  rw [hkey] at htext
  exact Option.some.inj htext ▸ ha

theorem takes_of_shuffleOf (h : (shuffleOf params).outcome s = (.ok t, s'))
    (hget : Dict.get? params key = some v) (hkey : key = "rng" ∨ key = "seed") :
    t.Takes s' key v ∨ Hidden (Dict.get? params) key := by
  simp only [shuffleOf] at h
  split at h
  · rename_i hrng
    obtain ⟨hmade, rfl⟩ := Action.ok_of_outcome_reading h
    rcases hkey with rfl | rfl
    · rw [Dict.get_of_get? hget] at hmade
      exact Or.inl (Transform.takes_of_makeShuffle _ hmade)
    · right
      cases hfound : Dict.get? params "rng" with
      | none => simp [Dict.get, hfound, Value.isNull] at hrng
      | some rng => exact .seed hfound (by simpa [Dict.get, hfound] using hrng)
  split at h
  · cases h
  rename_i hrng hseed
  obtain ⟨n, s₁, hn, hmade⟩ := Action.ok_of_outcome_bind h
  obtain ⟨hn, rfl⟩ := Action.ok_of_outcome_reading hn
  simp only [Action.outcome_bind, Action.outcome_get, Action.outcome_set, Action.outcome_pure,
    Store.addGenerator, Prod.mk.injEq, Except.ok.injEq] at hmade
  obtain ⟨rfl, rfl⟩ := hmade
  left
  rcases hkey with rfl | rfl
  · rw [Dict.get_of_get? hget] at hrng
    cases v <;> first | exact .noGenerator _ | exact absurd rfl hrng
  · rw [Dict.get_of_get? hget] at hn
    exact .seed hn (by simp)

/-- The value at the second of two keys counts, or there is one at the first. -/
theorem eq_or_isSome_of_getD {first : Option Value} {w : Value} (h : first.getD v = w) :
    v = w ∨ first.isSome = true := by
  cases first with
  | none => exact Or.inl h
  | some _ => exact Or.inr rfl

theorem takes_of_bitwise (hmem : key ∈ Kind.bitwise.accepted) (hget : Dict.get? params key = some v)
    (h : Transform.makeBitwise s.bytes (Dict.get params "second")
      (Dict.get params "mode") = .ok t) :
    t.Takes s key v := by
  obtain ⟨bs, m, rfl, hsecond, hmode⟩ := Transform.exists_of_makeBitwise h
  have hval := Dict.get_of_get? hget
  simp only [Kind.accepted, List.mem_cons, List.not_mem_nil, or_false] at hmem
  rcases hmem with rfl | rfl
  · exact .second (hval ▸ hsecond)
  · exact .mode (hval ▸ hmode)

theorem takes_of_shift (hmem : key ∈ Kind.shift.accepted) (hget : Dict.get? params key = some v)
    (h : Transform.makeShift s.bytes
      ((Dict.get? params "shift_count").getD (Dict.get params "count"))
      (Dict.get params "direction") = .ok t) : t.Takes s key v ∨ Hidden (Dict.get? params) key := by
  obtain ⟨n, d, rfl, hcount, hdirection⟩ := Transform.exists_of_makeShift h
  have hval := Dict.get_of_get? hget
  simp only [Kind.accepted, List.mem_cons, List.not_mem_nil, or_false] at hmem
  rcases hmem with rfl | rfl | rfl
  · rw [hget, Option.getD_some] at hcount
    exact Or.inl (hcount ▸ .count n (Or.inr rfl))
  · rw [hval] at hcount
    rcases eq_or_isSome_of_getD hcount with rfl | hother
    · exact Or.inl (.count n (Or.inl rfl))
    · exact Or.inr (.count hother)
  · exact Or.inl (.direction (hval ▸ hdirection))

theorem takes_of_concat (hmem : key ∈ Kind.concat.accepted) (hget : Dict.get? params key = some v)
    (h : Transform.makeConcat s.bytes (Dict.get params "second") = .ok t) : t.Takes s key v := by
  obtain ⟨bs, rfl, hsecond⟩ := Transform.exists_of_makeConcat h
  have hval := Dict.get_of_get? hget
  simp only [Kind.accepted, List.mem_cons, List.not_mem_nil, or_false] at hmem
  subst hmem
  exact .appended (hval ▸ hsecond)

/-- A comparator counts, and hides whether to descend. -/
theorem takes_of_sortBy {comparator : Value} (hmem : key ∈ Kind.sort.accepted)
    (hget : Dict.get? params key = some v)
    (hfound : Dict.get? params "comparator" = some comparator)
    (h : Transform.makeSort comparator = .ok t) :
    t.Takes s key v ∨ Hidden (Dict.get? params) key := by
  simp only [Kind.accepted, List.mem_cons, List.not_mem_nil, or_false] at hmem
  rcases hmem with rfl | rfl
  · obtain rfl := Option.some.inj (hfound.symm.trans hget)
    exact Or.inl (Transform.takes_of_makeSort _ h)
  · exact Or.inr (.descending (by rw [hfound]; rfl))

/-- Without a comparator it counts whether to descend. -/
theorem takes_of_sort (hmem : key ∈ Kind.sort.accepted) (hget : Dict.get? params key = some v)
    (hnone : Dict.get? params "comparator" = none) :
    (Transform.sort (if (Dict.get params "descending").holds s.bytes then some .descending
      else none)).Takes s key v := by
  simp only [Kind.accepted, List.mem_cons, List.not_mem_nil, or_false] at hmem
  rcases hmem with rfl | rfl
  · rw [hget] at hnone
    cases hnone
  · rw [Dict.get_of_get? hget]
    exact .descending v

theorem takes_of_copy (hmem : key ∈ Kind.copy.accepted) (hget : Dict.get? params key = some v)
    (h : Transform.makeCopy s.bytes ((Dict.get? params "offset").getD (.int 0))
      (Dict.get params "length") = .ok t) : t.Takes s key v := by
  obtain ⟨m, n, rfl, hoffset, hlength⟩ := Transform.exists_of_makeCopy h
  have hval := Dict.get_of_get? hget
  simp only [Kind.accepted, List.mem_cons, List.not_mem_nil, or_false] at hmem
  rcases hmem with rfl | rfl
  · rw [hget, Option.getD_some] at hoffset
    exact hoffset ▸ .offset m
  · rw [hval] at hlength
    exact hlength ▸ .length n

theorem takes_of_resize (hmem : key ∈ Kind.resize.accepted) (hget : Dict.get? params key = some v)
    (h : Transform.makeResize s.bytes ((Dict.get? params "new_size").getD (Dict.get params "size"))
      = .ok t) :
    t.Takes s key v ∨ Hidden (Dict.get? params) key := by
  obtain ⟨n, rfl, hsize⟩ := Transform.exists_of_makeResize h
  have hval := Dict.get_of_get? hget
  simp only [Kind.accepted, List.mem_cons, List.not_mem_nil, or_false] at hmem
  rcases hmem with rfl | rfl
  · rw [hget, Option.getD_some] at hsize
    exact Or.inl (hsize ▸ .size n (Or.inr rfl))
  · rw [hval] at hsize
    rcases eq_or_isSome_of_getD hsize with rfl | hother
    · exact Or.inl (.size n (Or.inl rfl))
    · exact Or.inr (.size hother)

/-- **A family makes its transform with the value of every key that is not hidden.** -/
theorem takes_of_ofParams (h : ((builtin k).ofParams params).outcome s = (.ok t, s'))
    (hget : Dict.get? params key = some v) : t.Takes s' key v ∨ Hidden (Dict.get? params) key := by
  have hmem : key ∈ k.accepted := mem_accepted_of_ofParams h hget
  obtain ⟨_, s₁, -, h⟩ := Action.ok_of_outcome_bind h
  cases k with
  | negate => cases hmem
  | reverse => cases hmem
  | bitwise =>
    obtain ⟨hmade, rfl⟩ := Action.ok_of_outcome_reading h
    exact Or.inl (takes_of_bitwise hmem hget hmade)
  | shift =>
    obtain ⟨hmade, rfl⟩ := Action.ok_of_outcome_reading h
    exact takes_of_shift hmem hget hmade
  | concat =>
    obtain ⟨hmade, rfl⟩ := Action.ok_of_outcome_reading h
    exact Or.inl (takes_of_concat hmem hget hmade)
  | sort =>
    simp only at h
    split at h
    · rename_i comparator hfound
      obtain ⟨hmade, rfl⟩ := Action.ok_of_outcome_reading h
      exact takes_of_sortBy hmem hget hfound hmade
    · rename_i hnone
      obtain ⟨_, _, hstore, h⟩ := Action.ok_of_outcome_bind h
      cases hstore
      cases h
      exact Or.inl (takes_of_sort hmem hget hnone)
  | shuffle =>
    simp only [Kind.accepted, List.mem_cons, List.not_mem_nil, or_false] at hmem
    exact takes_of_shuffleOf h hget hmem
  | copy =>
    obtain ⟨hmade, rfl⟩ := Action.ok_of_outcome_reading h
    exact Or.inl (takes_of_copy hmem hget hmade)
  | resize =>
    obtain ⟨hmade, rfl⟩ := Action.ok_of_outcome_reading h
    exact takes_of_resize hmem hget hmade

/-! ### Values that make no difference -/

theorem unknownKeys_congr (accepted : List String) (hkeys : params'.map (·.1) = params.map (·.1)) :
    unknownKeys contents accepted params' = unknownKeys contents accepted params := by
  have hunknown : ∀ d : Dict, unknownKeys contents accepted d =
      (((d.map (·.1)).filter fun key => !accepted.any fun a => key.asText? = some a).mapM
        fun key => key.printed contents) >>=
          fun unknown => .ok (unknown.mergeSort fun a b => decide (a ≤ b)) := by
    intro d
    rw [List.filter_map, List.mapM_map]
    rfl
  rw [hunknown, hunknown, hkeys]

/-- **The value of a hidden key makes no difference.** Its key is still checked. -/
theorem ofParams_of_hidden (h : Hidden (Dict.get? params) key)
    (hkeys : params'.map (·.1) = params.map (·.1))
    (hsame : ∀ other, other ≠ key → Dict.get? params' other = Dict.get? params other) (k : Kind) :
    (builtin k).ofParams params' = (builtin k).ofParams params := by
  have hget : ∀ other, other ≠ key → Dict.get params' other = Dict.get params other :=
    fun other hne => by
    rw [Dict.get, Dict.get, hsame other hne]
  have hcheck : ∀ contents, checkKeys contents (builtin k) params'
      = checkKeys contents (builtin k) params :=
    fun contents => by rw [checkKeys, checkKeys, unknownKeys_congr _ hkeys]
  unfold ofParams
  simp only [hcheck]
  -- only one kind reads the key, and it reads the other key first
  cases h with
  | count h =>
    obtain ⟨w, hw⟩ := Option.isSome_iff_exists.1 h
    cases k <;> simp [shuffleOf, hget, hsame, hw]
  | size h =>
    obtain ⟨w, hw⟩ := Option.isSome_iff_exists.1 h
    cases k <;> simp [shuffleOf, hget, hsame, hw]
  | descending h =>
    obtain ⟨w, hw⟩ := Option.isSome_iff_exists.1 h
    cases k <;> simp [shuffleOf, hget, hsame, hw]
  | seed hw hv => cases k <;> simp [shuffleOf, hget, hsame, Dict.get_of_get? hw, hv]

end Family

/-! ## Building -/

namespace Registry

variable {name : Value} {d : Dict} {s s' : Store} {t : Transform} {key : String} {v : Value}

/-- What is built by a name is made from the parameters over the defaults of the name. -/
theorem exists_of_build (h : (builtin.build name (.dict d)).outcome s = (.ok t, s')) :
    ∃ entry ∈ builtin, ∃ k, entry.family = .builtin k ∧
      ((Family.builtin k).ofParams (Dict.putAll entry.defaults d)).outcome s = (.ok t, s') := by
  obtain ⟨entry, s₁, hlookup, hbuild⟩ := Action.ok_of_outcome_bind h
  obtain ⟨merged, s₂, hmerged, hmade⟩ := Action.ok_of_outcome_bind hbuild
  obtain ⟨hentry, rfl⟩ := Action.ok_of_outcome_reading hlookup
  obtain ⟨hdict, rfl⟩ := Action.ok_of_outcome_reading hmerged
  rw [update_dict] at hdict
  cases hdict
  obtain ⟨k, hk⟩ := isOwn_builtin entry (mem_of_lookup hentry)
  exact ⟨entry, mem_of_lookup hentry, k, hk, by rwa [hk] at hmade⟩

/-- No default hides a key. -/
theorem get?_defaults {entry : Registration} (h : entry ∈ builtin) :
    ∀ key ∈ ["shift_count", "new_size", "comparator", "rng"], Dict.get? entry.defaults key
      = none := by
  simp only [builtin, List.mem_cons, List.not_mem_nil, or_false] at h
  rcases h with rfl | rfl | rfl | rfl | rfl | rfl | rfl | rfl | rfl | rfl | rfl | rfl <;>
    simp [Dict.get?_cons, Value.asText?]

/-- **A transform is built with the value of every key that is not hidden.** -/
theorem takes_of_build (hd : d.IsDistinct)
    (h : (builtin.build name (.dict d)).outcome s = (.ok t, s')) (hget : Dict.get? d key = some v) :
    t.Takes s' key v ∨ Hidden (Dict.get? d) key := by
  obtain ⟨entry, hentry, k, -, hmade⟩ := exists_of_build h
  have hmerged : Dict.get? (Dict.putAll entry.defaults d)
      = fun key => (Dict.get? d key).or (Dict.get? entry.defaults key) :=
    funext (Dict.get?_putAll hd entry.defaults)
  have hfound : Dict.get? (Dict.putAll entry.defaults d) key = some v := by
    rw [Dict.get?_putAll hd, hget]
    rfl
  refine (Family.takes_of_ofParams hmade hfound).imp_right fun hhidden => ?_
  rw [hmerged] at hhidden
  exact hhidden.of_or (get?_defaults hentry)

/-- **Another value for a hidden key makes no difference.** -/
theorem outcome_build_of_hidden (hd : d.IsDistinct) (h : Hidden (Dict.get? d) key)
    (hget : Dict.get? d key = some v) (w : Value) (s : Store) :
    (builtin.build name (.dict (Dict.put d (.text key) w))).outcome s
      = (builtin.build name (.dict d)).outcome s := by
  have hkeys := Dict.map_fst_put_of_mem (Dict.exists_key_of_get? hget) w
  simp only [build, Action.outcome_bind, Action.outcome_reading, update_dict]
  cases hlookup : builtin.lookup s.bytes name with
  | error fault => rfl
  | ok entry =>
    have hentry := mem_of_lookup hlookup
    obtain ⟨k, hk⟩ := isOwn_builtin entry hentry
    have hput : (Dict.put d (.text key) w).IsDistinct := hd.put _ _
    simp only [hk]
    rw [Family.ofParams_of_hidden _ (Dict.map_fst_putAll_congr rfl hkeys)]
    · intro other hne
      rw [Dict.get?_putAll hput, Dict.get?_putAll hd, Dict.get?_put, if_neg]
      simpa [Value.asText?] using hne.symm
    · refine h.mono fun key v hv => ?_
      rw [Dict.get?_putAll hd, hv]
      rfl

end Registry

namespace Pipeline

/-- **A pipeline is built step by step.** Later steps at most add generators. -/
theorem forall₂_of_build {r : Registry} {steps : List Step} {s s' : Store}
    {built : List (Value × Transform)} (h : (build r steps).outcome s = (.ok built, s')) :
    List.Forall₂ (fun step e => e.1 = step.name ∧ ∃ s₁ s₂,
      (r.build step.name step.params).outcome s₁ = (.ok e.2, s₂) ∧ s₂.Extends s') steps built := by
  induction steps generalizing s built with
  | nil =>
    cases h
    exact .nil
  | cons step rest ih =>
    obtain ⟨t, s₁, ht, h⟩ := Action.ok_of_outcome_bind h
    obtain ⟨later, s₂, hlater, h⟩ := Action.ok_of_outcome_bind h
    cases h
    exact .cons ⟨rfl, s, s₁, ht, extends_of_build hlater⟩ (ih hlater)

end Pipeline

/-! ## Options in a pipeline -/

namespace Assignment

variable {texts : List String} {name key : String} {v : Value} {s : Step}

theorem params_setText_of_eq (h : s.params = .dict s.pairs) (text : String) :
    (s.setText text).params = .dict (s.setText text).pairs := by
  unfold Step.setText
  split
  · split
    · exact Step.params_set s _ _
    · exact h
  · exact h

theorem params_merged_of_eq (h : s.params = .dict s.pairs) (texts : List String) :
    (s.merged texts).params = .dict (s.merged texts).pairs := by
  induction texts generalizing s with
  | nil => exact h
  | cons text rest ih => exact ih (params_setText_of_eq h text)

theorem params_setText (hname : s.name.asText? = some name) {text : String}
    (h : valueFor? name key text = some v) :
    (s.setText text).params = .dict (s.setText text).pairs := by
  unfold valueFor? at h
  unfold Step.setText
  split at h
  · rename_i a w hread
    split at h
    · rename_i hfor
      have hisFor : a.isFor s = true := isFor_iff.2 (hfor.1 ▸ hname)
      simp only [hisFor, if_true]
      exact Step.params_set s _ _
    · cases h
  · cases h

/-- A step that an option is for has a dictionary for its parameters in the end. -/
theorem params_merged (hname : s.name.asText? = some name) (h : given? texts name key = some v) :
    (s.merged texts).params = .dict (s.merged texts).pairs := by
  induction texts generalizing s with
  | nil => cases h
  | cons text rest ih =>
    have hkept : (s.setText text).name.asText? = some name := by rw [name_setText, hname]
    unfold given? valuesFor at h
    rw [List.filterMap_cons] at h
    cases hvalue : valueFor? name key text with
    | none =>
      rw [hvalue] at h
      exact ih hkept h
    | some w => exact params_merged_of_eq (params_setText hname hvalue) rest

/-- The value that a step has for a parameter in the end: that of the last option for it, or else
its own. -/
def final? (texts : List String) (name : String) (s : Step) (key : String) : Option Value :=
  (given? texts name key).or (s.get? key)

/-- **What becomes of options.** Let all steps be built after options have been set in them. For
every option that no later one for the same key overrides, each step of the name is made with its
value, unless the key is hidden in the step by another one, of an option or of the configuration. A
value that is hidden makes no difference. -/
theorem options_taken {steps out : List Step} (hmerge : applyAll steps texts = .ok out)
    {s s' : Store} {built : List (Value × Transform)}
    (hbuild : (Pipeline.build .builtin out).outcome s = (.ok built, s')) :
    List.Forall₂ (fun step e => e.1 = step.name ∧
      ∀ name key v, step.name.asText? = some name → given? texts name key = some v →
        e.2.Takes s' key v ∨
          Hidden (final? texts name step) key ∧ ∀ w s,
            (Registry.builtin.build step.name ((step.merged texts).set key w).params).outcome s
              = (Registry.builtin.build step.name (step.merged texts).params).outcome s)
      steps built := by
  have hout := eq_merged_of_applyAll hmerge
  have hsteps := Pipeline.forall₂_of_build hbuild
  rw [hout, List.forall₂_map_left_iff] at hsteps
  refine hsteps.imp fun step e ⟨hname, s₁, s₂, hstep, hext⟩ => ?_
  rw [name_merged] at hname hstep
  refine ⟨hname, fun name key v htext hgiven => ?_⟩
  have hparams := params_merged htext hgiven
  have hfinal : Dict.get? (step.merged texts).pairs = final? texts name step :=
    funext fun key => get?_merged htext texts key
  have hfound : Dict.get? (step.merged texts).pairs key = some v := by
    rw [hfinal, final?, hgiven]
    rfl
  have hdistinct := (step.merged texts).isDistinct_pairs
  rw [hparams] at hstep
  rcases Registry.takes_of_build hdistinct hstep hfound with htakes | hhidden
  · exact Or.inl (htakes.of_extends hext)
  · refine Or.inr ⟨hfinal ▸ hhidden, fun w s => ?_⟩
    rw [hparams]
    exact Registry.outcome_build_of_hidden hdistinct hhidden hfound w s

/-! ## Both keys of a parameter -/

/-- A step that resizes, with the size at one of the keys for it. -/
def resizing (key : String) (n : Int) : Step := ⟨.text "resize", .dict [(.text key, .int n)]⟩

/-- What an option for the size makes of the step. -/
def resized (key : String) (n : Int) : Step := (resizing key n).set "size" (.int 2)

theorem isWritten_size : (Assignment.mk "resize" "size" "2").IsWritten "resize.size=2" :=
  ofText?_eq_some_iff.1 rfl

theorem value_size : (Assignment.mk "resize" "size" "2").value = .ok (.int 2) := rfl

theorem applyAll_size (key : String) (n : Int) :
    applyAll [resizing key n] ["resize.size=2"] = .ok [resized key n] := by
  have hmapped : (resizing key n).IsMapped :=
    Step.isMapped_of_opened rfl (List.pairwise_singleton _ _) (List.forall_mem_singleton.2 rfl)
  have haccepts : Accepts [resizing key n] "resize.size=2" :=
    ⟨_, _, isWritten_size, value_size, _, List.mem_cons_self, rfl⟩
  rw [applyAll_of_accepts (List.forall_mem_singleton.2 hmapped)
    (List.forall_mem_singleton.2 haccepts)]
  simp only [List.map, Step.merged, List.foldl, setText_of_isWritten isWritten_size value_size]
  rfl

theorem given?_size : given? ["resize.size=2"] "resize" "size" = some (.int 2) := by
  have hread := read?_eq_some_iff.2 ⟨isWritten_size, value_size⟩
  simp [given?, valuesFor, valueFor?, hread]

/-- The option overrides the size in the configuration if that is at the same key. -/
theorem options_taken_size : (Transform.resize 2).Takes .empty "size" (.int 2) := by
  have hbuild : (Pipeline.build .builtin [resized "size" 9]).outcome .empty
      = (.ok [(.text "resize", .resize 2)], .empty) := by
    cbv
  cases options_taken (applyAll_size "size" 9) hbuild with
  | cons h _ =>
    rcases h.2 "resize" "size" (.int 2) rfl given?_size with htakes | ⟨hhidden, -⟩
    · exact htakes
    · have hread := read?_eq_some_iff.2 ⟨isWritten_size, value_size⟩
      have hpairs : (resizing "size" 9).pairs = [(.text "size", .int 9)] :=
        Step.pairs_of_opened rfl (List.pairwise_singleton _ _)
      have hnone : final? ["resize.size=2"] "resize" (resizing "size" 9) "new_size" = none := by
        simp [final?, given?, valuesFor, valueFor?, hread, Step.get?, hpairs, Dict.get?_cons,
          Value.asText?]
      have hsome := hhidden.isSome_of_size
      rw [hnone] at hsome
      cases hsome

/-- **An option may be accepted and make no difference**: the size at the other key is in the
configuration, and the transform is made with that. -/
theorem size_hidden :
    applyAll [resizing "new_size" 4] ["resize.size=2"] = .ok [resized "new_size" 4] ∧
      given? ["resize.size=2"] "resize" "size" = some (.int 2) ∧
      (Pipeline.build .builtin [resized "new_size" 4]).outcome .empty
        = (.ok [(.text "resize", .resize 4)], .empty) ∧
      ¬ (Transform.resize 4).Takes .empty "size" (.int 2) := by
  refine ⟨applyAll_size "new_size" 4, given?_size, ?_, nofun⟩
  cbv

end Assignment

end Octets
