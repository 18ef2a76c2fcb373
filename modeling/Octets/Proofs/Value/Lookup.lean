import Octets.Value

/-!
# Looking up text keys

A key is found by equality, and a member of an enumeration equals its word. So of a key that is a
text, or is looked for by one, only the text counts (`Value.asText?`).

* `same_text_iff` — the keys that a text finds.
* `get?_put`, `get?_putAll` — what is found after entries have been set. Of entries with distinct
  keys, each is found that has been set; else what was there before.
* `forall_mem_putAll`, `exists_mem_putAll` — no other keys and values come in, and no key is lost.
* `isDistinct_ofPairs` — a dictionary that is made from pairs has distinct keys.
* `ofPairs_of_isDistinct` — pairs with distinct keys make up a dictionary as they are.
-/

namespace Octets

/-! ## Equal keys -/

namespace Value

variable {key other : Value} {s : String}

/-- To a key that holds a text, the keys are equal that hold the same. -/
theorem same_eq_of_asText? (h : key.asText? = some s) :
    key.same other = (other.asText? == some s) := by
  cases key with
  | text t =>
    cases h
    rw [same]
  | mode m =>
    cases h
    rw [same]
  | direction d =>
    cases h
    rw [same]
  | _ => cases h

/-- Nothing but a text, or the member of an enumeration, equals one. -/
theorem same_eq_false_of_asText? (h : key.asText? = none) (h' : other.asText? = some s) :
    key.same other = false := by
  cases key with
  | text _ => cases h
  | mode _ => cases h
  | direction _ => cases h
  | _ =>
    cases other with
    | text _ => simp [same, sameWhole, asWhole?]
    | mode _ => simp [same, sameWhole, asWhole?]
    | direction _ => simp [same, sameWhole, asWhole?]
    | _ => cases h'

/-- Equal keys hold the same text, if one of them holds any. -/
theorem asText?_of_same (h : key.same other = true) : key.asText? = other.asText? := by
  cases hkey : key.asText? with
  | some s =>
    rw [same_eq_of_asText? hkey, beq_iff_eq] at h
    exact h.symm
  | none =>
    cases hother : other.asText? with
    | none => rfl
    | some s =>
      rw [same_eq_false_of_asText? hkey hother] at h
      cases h

theorem same_of_asText? (h : key.asText? = some s) (h' : other.asText? = some s) :
    key.same other = true := by
  rw [same_eq_of_asText? h, h', beq_self_eq_true]

/-- **A text finds the keys that hold it.** -/
theorem same_text_iff (s : String) : key.same (.text s) = true ↔ key.asText? = some s :=
  ⟨asText?_of_same, fun h => same_of_asText? h rfl⟩

end Value

/-! ## Found values -/

namespace Dict

/-- No two keys of the dictionary are equal. -/
def IsDistinct (d : Dict) : Prop := d.Pairwise fun a b => a.1.same b.1 = false

variable {d other : Dict} {k v w : Value} {key : String}

@[simp] theorem get?_nil (key : String) : Dict.get? [] key = none := rfl

theorem get?_cons (k v : Value) (d : Dict) (key : String) :
    Dict.get? ((k, v) :: d) key = if k.asText? = some key then some v else Dict.get? d key := by
  by_cases h : k.asText? = some key
  · simp [Dict.get?, Dict.find?, (Value.same_text_iff key).2 h, h]
  · have hother : k.same (.text key) = false :=
      Bool.eq_false_iff.2 fun hsame => h ((Value.same_text_iff key).1 hsame)
    simp [Dict.get?, Dict.find?, hother, h]

theorem exists_mem_of_get? (h : Dict.get? d key = some v) : ∃ e ∈ d, e.2 = v := by
  obtain ⟨e, hfind, hv⟩ := Option.map_eq_some_iff.1 h
  exact ⟨e, List.mem_of_find?_eq_some hfind, hv⟩

/-- What is true of the values of a dictionary and of another value is true of what is found with
that one as the default. -/
theorem getD_of_forall {Q : Value → Prop} (h : ∀ e ∈ d, Q e.2) (key : String) (hv : Q v) :
    Q ((Dict.get? d key).getD v) := by
  cases hget : Dict.get? d key with
  | none => exact hv
  | some w =>
    obtain ⟨e, he, rfl⟩ := exists_mem_of_get? hget
    exact h e he

/-- A value that is looked up is one of the dictionary, or null. -/
theorem get_cases (d : Dict) (key : String) :
    Dict.get d key = .null ∨ ∃ e ∈ d, e.2 = Dict.get d key :=
  getD_of_forall (Q := fun v => v = .null ∨ ∃ e ∈ d, e.2 = v) (fun e he => Or.inr ⟨e, he, rfl⟩) key
    (Or.inl rfl)

theorem get?_eq_none (h : ∀ e ∈ d, e.1.asText? ≠ some key) : Dict.get? d key = none := by
  induction d with
  | nil => rfl
  | cons e rest ih =>
    obtain ⟨he, hrest⟩ := List.forall_mem_cons.1 h
    rw [get?_cons, if_neg he, ih hrest]

/-- Of distinct keys each one is found. -/
theorem get?_of_mem (h : d.IsDistinct) (hmem : (.text key, v) ∈ d) : Dict.get? d key = some v := by
  induction d with
  | nil => cases hmem
  | cons e rest ih =>
    obtain ⟨k, w⟩ := e
    obtain ⟨hk, hrest⟩ := List.pairwise_cons.1 h
    rw [get?_cons]
    rcases List.mem_cons.1 hmem with heq | hmem
    · cases heq
      exact if_pos rfl
    · have hne : k.asText? ≠ some key := by
        intro htext
        have hdistinct := hk _ hmem
        rw [Value.same_of_asText? htext rfl] at hdistinct
        cases hdistinct
      rw [if_neg hne, ih hrest hmem]

theorem exists_key_of_get? (h : Dict.get? d key = some v) : ∃ e ∈ d, e.1.asText? = some key := by
  refine Decidable.byContradiction fun hnone => ?_
  rw [get?_eq_none fun e he heq => hnone ⟨e, he, heq⟩] at h
  cases h

theorem get_of_get? (h : Dict.get? d key = some v) : Dict.get d key = v := by
  rw [Dict.get, h, Option.getD_some]

/-- **What is found after an entry has been set.** -/
theorem get?_put (d : Dict) (k v : Value) (key : String) :
    Dict.get? (Dict.put d k v) key = if k.asText? = some key then some v else Dict.get? d key := by
  induction d with
  | nil => exact get?_cons k v [] key
  | cons e rest ih =>
    obtain ⟨k₀, w⟩ := e
    unfold Dict.put
    by_cases hsame : k₀.same k = true
    · have htext := Value.asText?_of_same hsame
      rw [if_pos hsame, get?_cons, get?_cons, htext]
      split <;> rfl
    · rw [if_neg hsame, get?_cons, get?_cons, ih]
      by_cases hk₀ : k₀.asText? = some key
      · -- the entry in front is found, and is not the one that is set
        have hk : k.asText? ≠ some key := fun hk => hsame (Value.same_of_asText? hk₀ hk)
        rw [if_pos hk₀, if_neg hk, if_pos hk₀]
      · rw [if_neg hk₀, if_neg hk₀]

/-- **What is found after the entries of a dictionary have been set.** -/
theorem get?_putAll (h : other.IsDistinct) (d : Dict) (key : String) :
    Dict.get? (Dict.putAll d other) key = (Dict.get? other key).or (Dict.get? d key) := by
  induction other generalizing d with
  | nil => rfl
  | cons e rest ih =>
    obtain ⟨k, v⟩ := e
    obtain ⟨hk, hrest⟩ := List.pairwise_cons.1 h
    have hput : Dict.putAll d ((k, v) :: rest) = Dict.putAll (Dict.put d k v) rest := rfl
    rw [hput, ih hrest, get?_put, get?_cons]
    by_cases htext : k.asText? = some key
    · -- no later entry has the key again
      have hnone : Dict.get? rest key = none := by
        refine get?_eq_none fun e he heq => ?_
        have hdistinct := hk e he
        rw [Value.same_of_asText? htext heq] at hdistinct
        cases hdistinct
      rw [if_pos htext, if_pos htext, hnone]
      rfl
    · rw [if_neg htext, if_neg htext]

/-! ## Keys and values -/

variable {P Q : Value → Prop}

theorem forall_mem_put (hd : ∀ e ∈ d, P e.1 ∧ Q e.2) (hk : P k) (hv : Q v) :
    ∀ e ∈ Dict.put d k v, P e.1 ∧ Q e.2 := by
  induction d with
  | nil => exact List.forall_mem_singleton.2 ⟨hk, hv⟩
  | cons e rest ih =>
    obtain ⟨he, hrest⟩ := List.forall_mem_cons.1 hd
    unfold Dict.put
    split
    · exact List.forall_mem_cons.2 ⟨⟨he.1, hv⟩, hrest⟩
    · exact List.forall_mem_cons.2 ⟨he, ih hrest⟩

/-- What is true of the keys and of the values of two dictionaries is true when one is set over the
other. -/
theorem forall_mem_putAll (hd : ∀ e ∈ d, P e.1 ∧ Q e.2) (hother : ∀ e ∈ other, P e.1 ∧ Q e.2) :
    ∀ e ∈ Dict.putAll d other, P e.1 ∧ Q e.2 := by
  induction other generalizing d with
  | nil => exact hd
  | cons e rest ih =>
    obtain ⟨he, hrest⟩ := List.forall_mem_cons.1 hother
    exact ih (forall_mem_put hd he.1 he.2) hrest

/-- A key that is set is there, in its own form or in an equal one. -/
theorem exists_mem_put (d : Dict) (k v : Value) :
    ∃ e ∈ Dict.put d k v, e.1.asText? = k.asText? := by
  induction d with
  | nil => exact ⟨(k, v), List.mem_singleton_self _, rfl⟩
  | cons e rest ih =>
    unfold Dict.put
    split
    · rename_i hsame
      exact ⟨(e.1, v), List.mem_cons_self, Value.asText?_of_same hsame⟩
    · obtain ⟨e', he', htext⟩ := ih
      exact ⟨e', List.mem_cons_of_mem _ he', htext⟩

/-- A key that was there is kept. -/
theorem exists_mem_put_of_mem {e : Value × Value} (he : e ∈ d) (k v : Value) :
    ∃ e' ∈ Dict.put d k v, e'.1 = e.1 := by
  induction d with
  | nil => cases he
  | cons e₀ rest ih =>
    unfold Dict.put
    rcases List.mem_cons.1 he with rfl | he
    · split
      · exact ⟨_, List.mem_cons_self, rfl⟩
      · exact ⟨_, List.mem_cons_self, rfl⟩
    · split
      · exact ⟨e, List.mem_cons_of_mem _ he, rfl⟩
      · obtain ⟨e', he', hkey⟩ := ih he
        exact ⟨e', List.mem_cons_of_mem _ he', hkey⟩

/-- All keys of both dictionaries are there when one is set over the other. -/
theorem exists_mem_putAll {e : Value × Value} (he : e ∈ d ∨ e ∈ other) :
    ∃ e' ∈ Dict.putAll d other, e'.1.asText? = e.1.asText? := by
  induction other generalizing d e with
  | nil =>
    rcases he with he | he
    · exact ⟨e, he, rfl⟩
    · cases he
  | cons e₀ rest ih =>
    rcases he with he | he
    · obtain ⟨e', he', hkey⟩ := exists_mem_put_of_mem he e₀.1 e₀.2
      obtain ⟨e'', he'', htext⟩ := ih (Or.inl he')
      exact ⟨e'', he'', by rw [htext, hkey]⟩
    · rcases List.mem_cons.1 he with rfl | he
      · obtain ⟨e', he', hkey⟩ := exists_mem_put d e.1 e.2
        obtain ⟨e'', he'', htext⟩ := ih (Or.inl he')
        exact ⟨e'', he'', by rw [htext, hkey]⟩
      · exact ih (Or.inr he)

/-! ## The list of keys -/

/-- A key that is there keeps its place and its form. -/
theorem map_fst_put_of_mem (h : ∃ e ∈ d, e.1.asText? = some key) (v : Value) :
    (Dict.put d (.text key) v).map (·.1) = d.map (·.1) := by
  induction d with
  | nil =>
    obtain ⟨e, he, -⟩ := h
    cases he
  | cons e rest ih =>
    unfold Dict.put
    split
    · rfl
    · rename_i hnot
      obtain ⟨e', he', htext⟩ := h
      rcases List.mem_cons.1 he' with rfl | he'
      · exact absurd ((Value.same_text_iff key).2 htext) hnot
      · rw [List.map_cons, ih ⟨e', he', htext⟩, List.map_cons]

/-- Which keys there are after one has been set depends on those that were there. -/
theorem map_fst_put_congr {d' : Dict} (h : d'.map (·.1) = d.map (·.1)) (k v w : Value) :
    (Dict.put d' k v).map (·.1) = (Dict.put d k w).map (·.1) := by
  induction d generalizing d' with
  | nil =>
    obtain rfl := List.map_eq_nil_iff.1 h
    rfl
  | cons e rest ih =>
    obtain ⟨e', rest', rfl, he, hrest⟩ := List.map_eq_cons_iff.1 h
    simp only [Dict.put, he]
    split
    · simp only [List.map_cons, hrest]
    · simp only [List.map_cons, ih hrest]

theorem map_fst_putAll_congr {d' other' : Dict} (hd : d'.map (·.1) = d.map (·.1))
    (h : other'.map (·.1) = other.map (·.1)) :
    (Dict.putAll d' other').map (·.1) = (Dict.putAll d other).map (·.1) := by
  induction other generalizing d d' other' with
  | nil =>
    obtain rfl := List.map_eq_nil_iff.1 h
    exact hd
  | cons e rest ih =>
    obtain ⟨⟨k, v'⟩, rest', rfl, rfl, hrest⟩ := List.map_eq_cons_iff.1 h
    have hkeys := ih (map_fst_put_congr hd e.1 v' e.2) hrest
    exact hkeys

/-! ## Distinct keys -/

/-- A dictionary in which a value is set keeps its keys distinct. -/
theorem IsDistinct.put (h : d.IsDistinct) (k v : Value) : (Dict.put d k v).IsDistinct := by
  induction d with
  | nil => exact List.pairwise_singleton _ _
  | cons e rest ih =>
    obtain ⟨he, hrest⟩ := List.pairwise_cons.1 h
    unfold Dict.put
    split
    · exact List.pairwise_cons.2 ⟨he, hrest⟩
    · rename_i hnot
      have hkept := forall_mem_put (P := fun key => e.1.same key = false) (Q := fun _ => True)
        (v := v) (fun e' he' => ⟨he e' he', trivial⟩) (Bool.eq_false_iff.2 hnot) trivial
      exact List.pairwise_cons.2 ⟨fun e' he' => (hkept e' he').1, ih hrest⟩

theorem IsDistinct.putAll (h : d.IsDistinct) (other : Dict) : (Dict.putAll d other).IsDistinct := by
  induction other generalizing d with
  | nil => exact h
  | cons e rest ih => exact ih (h.put e.1 e.2)

/-- **A dictionary that is made from pairs has distinct keys.** -/
theorem isDistinct_ofPairs (pairs : List (Value × Value)) : (Dict.ofPairs pairs).IsDistinct :=
  IsDistinct.putAll List.Pairwise.nil pairs

theorem put_of_forall (h : ∀ e ∈ d, e.1.same k = false) : Dict.put d k v = d ++ [(k, v)] := by
  induction d with
  | nil => rfl
  | cons e rest ih =>
    obtain ⟨he, hrest⟩ := List.forall_mem_cons.1 h
    rw [Dict.put, if_neg (Bool.eq_false_iff.1 he), ih hrest, List.cons_append]

theorem putAll_of_isDistinct (h : IsDistinct (d ++ other)) : Dict.putAll d other = d ++ other := by
  induction other generalizing d with
  | nil => exact (List.append_nil d).symm
  | cons e rest ih =>
    have hfresh : ∀ e' ∈ d, e'.1.same e.1 = false := fun e' he' =>
      (List.pairwise_append.1 h).2.2 e' he' e List.mem_cons_self
    have happend : d ++ e :: rest = d ++ [e] ++ rest := by simp
    rw [happend] at h ⊢
    rw [← ih h, ← put_of_forall hfresh]
    rfl

/-- Pairs with distinct keys are the dictionary that is made from them. -/
theorem ofPairs_of_isDistinct (h : IsDistinct d) : Dict.ofPairs d = d :=
  putAll_of_isDistinct h

end Dict

end Octets
