import Octets.Proofs.Bytes.Bitwise
import Octets.Proofs.Pipeline.Fold
import Octets.Proofs.Transform.Observed
import Octets.Proofs.Transform.Reverse

/-!
# What a pipeline tells about the bytes

A transform is oblivious if nothing but the length of the bytes decides whether it refuses them, how
long its output is and what it draws. All transforms of this library are, but for a shift, which
looks at the number in the bytes, and for a sort by a comparator that may refuse.

Two runs of oblivious transforms on equally long bytes stay side by side (`Parallel`): their
generators and journals are equal, their present values equally long, and both or neither of these
is the input.

* `effect_congr_length` — the effects of an oblivious transform on equally long bytes.
* `parallel_deliver`, `parallel_applyStep` — what one step preserves.
* `parallel_applyAll` — so does a run, by induction on the steps.
* `outline_run_congr` — a pipeline of oblivious transforms tells nothing of the bytes but their
  length.
-/

namespace Octets

open Octets.Random (Generator)

/-! ## Lengths -/

namespace Bytes

@[simp] theorem length_swapReverse (bs : Bytes) : bs.swapReverse.length = bs.length := by
  rw [swapReverse_eq_reverse, List.length_reverse]

@[simp] theorem length_sort (bs : Bytes) : bs.sort.length = bs.length := by
  simp [sort]

/-- The draws of a shuffle depend on the number of the bytes only. -/
theorem shuffle_snd (bs : Bytes) (g : Generator) :
    (bs.shuffle g).2 = (Rearrange.draws (bs.length - 1) g).2 := rfl

end Bytes

namespace Comparator

/-- The comparator has an answer for every two numbers. -/
def IsTotal (c : Comparator) : Prop := ∀ a b, ∃ n, c.compare a b = .ok n

variable {c : Comparator}

theorem exists_insert (h : c.IsTotal) (x : Int) (values : List Int) :
    ∃ out, c.insert x values = .ok out ∧ out.length = values.length + 1 := by
  induction values with
  | nil => exact ⟨[x], rfl, rfl⟩
  | cons y rest ih =>
    obtain ⟨order, horder⟩ := h y x
    obtain ⟨out, hout, hlength⟩ := ih
    by_cases hbefore : order < 0
    · refine ⟨y :: out, ?_, by rw [List.length_cons, hlength, List.length_cons]⟩
      simp [insert, horder, hbefore, hout, bind, Except.bind, pure, Except.pure]
    · refine ⟨x :: y :: rest, ?_, rfl⟩
      simp [insert, horder, hbefore, bind, Except.bind, pure, Except.pure]

theorem exists_sort (h : c.IsTotal) (values : List Int) :
    ∃ out, c.sort values = .ok out ∧ out.length = values.length := by
  induction values with
  | nil => exact ⟨[], rfl, rfl⟩
  | cons x rest ih =>
    obtain ⟨sorted, hsorted, hlength⟩ := ih
    obtain ⟨out, hout, hinserted⟩ := exists_insert h x sorted
    refine ⟨out, ?_, by rw [hinserted, hlength, List.length_cons]⟩
    rw [sort, hsorted]
    exact hout

end Comparator

/-! ## Oblivious transforms -/

namespace Transform

/-- The transform is no shift, and no sort by a comparator that may refuse. -/
def IsOblivious (t : Transform) : Prop :=
  t.kind? ≠ some .shift ∧ ∀ c, t = sort (some c) → c.IsTotal

variable {t : Transform} {bs bs' : Bytes}

/-- **The length of the bytes decides what an oblivious transform does to it**, whether it refuses
them, and what it draws. -/
theorem effect_congr_length (ht : t.IsOblivious) (hlength : bs.length = bs'.length)
    (gs : List Generator) :
    (t.effect bs gs).map (fun made => (made.1.length, made.2))
      = (t.effect bs' gs).map (fun made => (made.1.length, made.2)) := by
  cases t with
  | bitwise second mode =>
    simp only [effect, hlength]
    by_cases h : bs'.length = second.length
    · have h' : bs.length = second.length := hlength.trans h
      simp [h, Bytes.length_combine mode h, Bytes.length_combine mode h', Except.map, h']
    · simp [h, Except.map]
  | negate => simp [effect, Except.map, hlength]
  | shift count direction => exact absurd rfl ht.1
  | concat second => simp [effect, Except.map, hlength]
  | reverse => simp [effect, Except.map, hlength]
  | sort comparator =>
    cases comparator with
    | none => simp [effect, Except.map, hlength]
    | some c =>
      obtain ⟨out, hout, hsize⟩ := Comparator.exists_sort (ht.2 c rfl) (bs.map Bytes.signed)
      obtain ⟨out', hout', hsize'⟩ := Comparator.exists_sort (ht.2 c rfl) (bs'.map Bytes.signed)
      have hsame : out.length = out'.length := by
        rw [hsize, hsize', List.length_map, List.length_map, hlength]
      simp [effect, hout, hout', Except.map, hsame]
  | shuffle kind generator =>
    simp only [effect]
    cases gs[generator]? with
    | none => simp [Except.map, hlength]
    | some g => simp [Except.map, Rearrange.length_shuffle, Bytes.shuffle_snd, hlength]
  | copy offset length =>
    simp only [effect, hlength]
    split
    · rfl
    · simp [Except.map, hlength]
  | resize size =>
    simp only [effect, hlength]
    repeat' split
    all_goals simp [Except.map, hlength]
  | added p values => simp [effect, Except.map, hlength]

end Transform

/-! ## Two runs side by side -/

namespace Store

/-- Two stores that two runs on the values `w` and `w'` have come to alike: with equal generators,
an equal journal, and still with the values that the runs began on. -/
structure Alike (w w' : Value) (s s' : Store) : Prop where
  generators : s.generators = s'.generators
  journal : s.journal = s'.journal
  isLive : ∀ ref, w = .buffer ref → ref < s.buffers.length
  isLive' : ∀ ref, w' = .buffer ref → ref < s'.buffers.length

/-- The present values of two runs on `w` and `w'`: equally long byte strings of one kind, of which
both are the value that its run began on, or neither. -/
structure Beside (w w' : Value) (s s' : Store) (v v' : Value) : Prop where
  exists_holds : ∃ bs bs', s.Holds v bs ∧ s'.Holds v' bs' ∧ bs.length = bs'.length
  kind : v.kind = v'.kind
  isBuffer : ∀ ref ref', v = .buffer ref → v' = .buffer ref' → w.isBuffer ref = w'.isBuffer ref'

end Store

/-- Two runs on `w` and `w'` that have ended alike: with the same fault, or with results beside each
other. -/
inductive Parallel (w w' : Value) : Except Fault Nat × Store → Except Fault Nat × Store → Prop
  | error {s s' : Store} (fault : Fault) (h : Store.Alike w w' s s') :
      Parallel w w' (.error fault, s) (.error fault, s')
  | ok {s s' : Store} (ref ref' : Nat) (h : Store.Alike w w' s s')
      (hresult : Store.Beside w w' s s' (.buffer ref) (.buffer ref')) :
      Parallel w w' (.ok ref, s) (.ok ref', s')

namespace Store

variable {w w' v v' : Value} {s s' : Store} {bs bs' out out' : Bytes}

/-- Two values of one kind are beside each other before the runs on them have begun. -/
theorem Beside.refl (hv : s.Holds v bs) (hv' : s'.Holds v' bs') (hkind : v.kind = v'.kind)
    (hlength : bs.length = bs'.length) : Beside v v' s s' v v' where
  exists_holds := ⟨bs, bs', hv, hv', hlength⟩
  kind := hkind
  isBuffer := by
    rintro ref ref' rfl rfl
    simp [Value.isBuffer]

theorem alike_of_holds (hv : s.Holds v bs) (hv' : s'.Holds v' bs')
    (hgenerators : s.generators = s'.generators) (hjournal : s.journal = s'.journal) :
    Alike v v' s s' :=
  ⟨hgenerators, hjournal, hv.isLive, hv'.isLive⟩

/-- A new buffer is no value that was there before. -/
theorem isBuffer_add (hlive : ∀ ref, w = .buffer ref → ref < s.buffers.length) :
    w.isBuffer s.buffers.length = false := by
  cases w with
  | buffer ref =>
    have hlt := hlive ref rfl
    simp only [Value.isBuffer, beq_eq_false_iff_ne]
    omega
  | _ => rfl

end Store

namespace Transform

variable {w w' v v' : Value} {s s' : Store} {bs bs' out out' : Bytes} {gs gs' : List Generator}
  {t : Transform} {inPlace : Bool}

/-- New buffers of one length, in two runs. -/
theorem parallel_add (h : Store.Alike w w' s s') (hlength : out.length = out'.length)
    (hgs : gs = gs') :
    Parallel w w' (.ok s.buffers.length, { (s.add out).2 with generators := gs })
      (.ok s'.buffers.length, { (s'.add out').2 with generators := gs' }) := by
  refine .ok _ _ ⟨hgs, h.journal, fun ref hw => ?_, fun ref hw' => ?_⟩
    ⟨⟨out, out', ?_, ?_, hlength⟩, rfl, ?_⟩
  · exact Nat.lt_of_lt_of_le (h.isLive ref hw) (by simp)
  · exact Nat.lt_of_lt_of_le (h.isLive' ref hw') (by simp)
  · exact s.holds_added out gs
  · exact s'.holds_added out' gs'
  · rintro _ _ ⟨⟩ ⟨⟩
    rw [Store.isBuffer_add h.isLive, Store.isBuffer_add h.isLive']

/-- Buffers beside each other that are overwritten. -/
theorem parallel_overwrite {ref ref' : Nat} (h : Store.Alike w w' s s')
    (hv : Store.Beside w w' s s' (.buffer ref) (.buffer ref')) (hlength : out.length = out'.length)
    (gs : List Generator) :
    Parallel w w' (.ok ref, { s.overwrite ref out with generators := gs })
      (.ok ref', { s'.overwrite ref' out' with generators := gs }) := by
  obtain ⟨bs, bs', hheld, hheld', -⟩ := hv.exists_holds
  refine .ok _ _ ⟨rfl, h.journal, fun other hw => ?_, fun other hw' => ?_⟩
    ⟨⟨out, out', ?_, ?_, hlength⟩, rfl, hv.isBuffer⟩
  · simpa using h.isLive other hw
  · simpa using h.isLive' other hw'
  · exact Store.holds_overwritten (hheld.isLive ref rfl) out gs
  · exact Store.holds_overwritten (hheld'.isLive ref' rfl) out' gs

/-- Values beside each other are two buffers, or none is one. -/
theorem cases_of_beside (hv : Store.Beside w w' s s' v v') :
    (∃ ref ref', v = .buffer ref ∧ v' = .buffer ref') ∨
      (∀ ref, v ≠ .buffer ref) ∧ ∀ ref, v' ≠ .buffer ref := by
  have hkind := hv.kind
  obtain ⟨_, _, hheld, hheld', -⟩ := hv.exists_holds
  rcases cases_of_asBytes? hheld.asBytes? with ⟨ref, rfl, -⟩ | rfl | rfl <;>
    rcases cases_of_asBytes? hheld'.asBytes? with ⟨ref', rfl, -⟩ | rfl | rfl <;>
    simp_all [Value.kind]

/-- Equally long outputs are delivered alike to values beside each other. -/
theorem parallel_deliver (h : Store.Alike w w' s s') (hv : Store.Beside w w' s s' v v')
    (hlength : out.length = out'.length) (length : Nat) (gs : List Generator) :
    Parallel w w' (t.deliver v inPlace length out gs s)
      (t.deliver v' inPlace length out' gs s') := by
  cases hplace : inPlace && t.reuses length with
  | false =>
    rw [deliver_of_not_reuses hplace, deliver_of_not_reuses hplace]
    exact parallel_add h hlength rfl
  | true =>
    obtain ⟨rfl, hreuses⟩ := Bool.and_eq_true_iff.1 hplace
    rcases cases_of_beside hv with ⟨ref, ref', rfl, rfl⟩ | ⟨hfixed, hfixed'⟩
    · rw [deliver_buffer ref hreuses, deliver_buffer ref' hreuses]
      exact parallel_overwrite h hv hlength gs
    · rw [deliver_of_not_buffer hfixed hreuses, deliver_of_not_buffer hfixed' hreuses, hv.kind]
      split
      · exact .error _ h
      · exact parallel_add h hlength rfl

/-- **An oblivious transform is applied alike to values beside each other.** -/
theorem parallel_result (ht : t.IsOblivious) (h : Store.Alike w w' s s')
    (hv : Store.Beside w w' s s' v v') (hlength : bs.length = bs'.length) (inPlace : Bool) :
    Parallel w w' (t.result v inPlace bs s) (t.result v' inPlace bs' s') := by
  have heffect := effect_congr_length ht hlength s.generators
  cases heff : t.effect bs s.generators with
  | error fault =>
    cases heff' : t.effect bs' s.generators with
    | error fault' =>
      rw [heff, heff'] at heffect
      cases heffect
      rw [result_of_error heff, result_of_error (h.generators ▸ heff')]
      exact .error fault h
    | ok made' => simp [heff, heff', Except.map] at heffect
  | ok made =>
    cases heff' : t.effect bs' s.generators with
    | error fault' => simp [heff, heff', Except.map] at heffect
    | ok made' =>
      obtain ⟨out, gs⟩ := made
      obtain ⟨out', gs'⟩ := made'
      obtain ⟨hout, rfl⟩ : out.length = out'.length ∧ gs = gs' := by
        simpa [heff, heff', Except.map] using heffect
      rw [result_of_ok heff, result_of_ok (h.generators ▸ heff'), hlength]
      exact parallel_deliver h hv hout _ gs

end Transform

/-! ## Names -/

/-- The plain form of a name does not depend on the store. -/
theorem Value.display_congr {v : Value} (h : v.asText?.isSome) (contents contents' : Nat → Bytes) :
    v.display contents = v.display contents' := by
  cases v with
  | text s => rfl
  | mode m => rfl
  | direction d => rfl
  | _ => cases h

theorem Registry.isSome_asText?_of_lookup {r : Registry} {contents : Nat → Bytes} {name : Value}
    {entry : Registration} (h : r.lookup contents name = .ok entry) : name.asText?.isSome := by
  unfold lookup at h
  split at h
  · cases h
  · rename_i found _ hfound
    obtain ⟨text, htext, -⟩ := Option.bind_eq_some_iff.1 hfound
    rw [htext]
    rfl
  · obtain ⟨_, -, h⟩ := ok_of_bind h
    cases h

namespace Pipeline

/-- What is built has been found by a name. -/
theorem isSome_asText?_of_build {r : Registry} {steps : List Step} {s s' : Store}
    {built : List (Value × Transform)} (h : (build r steps).outcome s = (.ok built, s')) :
    ∀ e ∈ built, e.1.asText?.isSome := by
  induction steps generalizing s s' built with
  | nil =>
    cases h
    simp
  | cons step rest ih =>
    obtain ⟨t, s₁, ht, h⟩ := Action.ok_of_outcome_bind h
    obtain ⟨later, s₂, hlater, h⟩ := Action.ok_of_outcome_bind h
    cases h
    obtain ⟨entry, s₃, hentry, -⟩ := Action.ok_of_outcome_bind ht
    have hname := Registry.isSome_asText?_of_lookup (Action.ok_of_outcome_reading hentry).1
    exact List.forall_mem_cons.2 ⟨hname, ih hlater⟩

/-! ## Runs -/

/-- What is told of a run on the value `v`, apart from bytes: the length of the result and whether
it is the value itself, or the fault; the generators; and the journal. -/
def outline (v : Value) (x : Except Fault Nat × Store) :
    Except Fault (Nat × Bool) × List Generator × List Applied :=
  (x.1.map fun ref => ((x.2.bytes ref).length, v.isBuffer ref), x.2.generators, x.2.journal)

variable {w w' v v' : Value} {s s' : Store} {x x' : Except Fault Nat × Store}

theorem outline_of_parallel (h : Parallel w w' x x') : outline w x = outline w' x' := by
  cases h with
  | error fault h => simp [outline, Except.map, h.generators, h.journal]
  | ok ref ref' h hresult =>
    obtain ⟨bs, bs', hheld, hheld', hlength⟩ := hresult.exists_holds
    simp [outline, Except.map, h.generators, h.journal, hheld.bytes_eq, hheld'.bytes_eq, hlength,
      hresult.isBuffer ref ref' rfl rfl]

/-- **A step by an oblivious transform keeps two runs side by side.** -/
theorem parallel_applyStep {name : Value} {t : Transform} (hname : name.asText?.isSome)
    (hown : t.IsOwn) (ht : t.IsOblivious) (h : Store.Alike w w' s s')
    (hv : Store.Beside w w' s s' v v') (inPlace : Bool) :
    Parallel w w' ((applyStep name t v inPlace).outcome s)
      ((applyStep name t v' inPlace).outcome s') := by
  obtain ⟨bs, bs', hheld, hheld', hlength⟩ := hv.exists_holds
  rw [outcome_applyStep hown hheld.asBytes?, outcome_applyStep hown hheld'.asBytes?]
  have hresult := Transform.parallel_result ht h hv hlength inPlace
  -- the journal tells whether the present value was reused, not the one that the run began on
  have hreused := outline_of_parallel <| Transform.parallel_result ht
    (Store.alike_of_holds hheld hheld' h.generators h.journal)
    (.refl hheld hheld' hv.kind hlength) hlength inPlace
  generalize t.result v inPlace bs s = x at hresult hreused ⊢
  generalize t.result v' inPlace bs' s' = x' at hresult hreused ⊢
  cases hresult with
  | error fault h => exact .error fault h
  | @ok s₁ s₁' ref ref' h hresult =>
    simp only [outline, Except.map, Prod.mk.injEq, Except.ok.injEq] at hreused
    simp only [Transform.describe_congr hown s₁'.bytes s₁.bytes]
    cases t.describe s₁.bytes with
    | error fault => exact .error fault h
    | ok description =>
      obtain ⟨out, out', hout, hout', hsize⟩ := hresult.exists_holds
      refine .ok ref ref' ⟨h.generators, ?_, h.isLive, h.isLive'⟩
        ⟨⟨out, out', ⟨hout.asBytes?, hout.isLive⟩, ⟨hout'.asBytes?, hout'.isLive⟩, hsize⟩, rfl,
          hresult.isBuffer⟩
      simp only [h.journal, hreused.1, hlength, Store.display,
        Value.display_congr hname s₁.bytes s₁'.bytes]

variable {built : List (Value × Transform)}

theorem parallel_applyFrom (h : ∀ e ∈ built, e.1.asText?.isSome ∧ e.2.IsOwn ∧ e.2.IsOblivious)
    (hs : Store.Alike w w' s s') {ref ref' : Nat}
    (hv : Store.Beside w w' s s' (.buffer ref) (.buffer ref')) :
    Parallel w w' ((applyFrom ref built).outcome s) ((applyFrom ref' built).outcome s') := by
  induction built generalizing s s' ref ref' with
  | nil => exact .ok ref ref' hs hv
  | cons e rest ih =>
    obtain ⟨name, t⟩ := e
    obtain ⟨⟨hname, hown, ht⟩, hrest⟩ := List.forall_mem_cons.1 h
    rw [applyFrom, applyFrom, Action.outcome_bind, Action.outcome_bind]
    have hstep := parallel_applyStep hname hown ht hs hv true
    generalize (applyStep name t (.buffer ref) true).outcome s = x at hstep ⊢
    generalize (applyStep name t (.buffer ref') true).outcome s' = x' at hstep ⊢
    cases hstep with
    | error fault hs => exact .error fault hs
    | ok next next' hs hnext => exact ih hrest hs hnext

/-- **Two runs of oblivious transforms on values beside each other stay side by side.** -/
theorem parallel_applyAll (h : ∀ e ∈ built, e.1.asText?.isSome ∧ e.2.IsOwn ∧ e.2.IsOblivious)
    (hs : Store.Alike w w' s s') (hv : Store.Beside w w' s s' v v') (inPlace : Bool) :
    Parallel w w' ((applyAll v inPlace built).outcome s)
      ((applyAll v' inPlace built).outcome s') := by
  cases built with
  | nil =>
    obtain ⟨bs, bs', hheld, hheld', hlength⟩ := hv.exists_holds
    have hcopy : Parallel w w' ((Action.toBuffer v).outcome s)
        ((Action.toBuffer v').outcome s') := by
      rw [Action.outcome_toBuffer hheld.asBytes?, Action.outcome_toBuffer hheld'.asBytes?]
      exact Transform.parallel_add hs hlength hs.generators
    cases inPlace with
    | false => cases v <;> cases v' <;> exact hcopy
    | true =>
      rcases Transform.cases_of_beside hv with ⟨ref, ref', rfl, rfl⟩ | ⟨hfixed, hfixed'⟩
      · exact .ok ref ref' hs hv
      · cases v <;> cases v' <;>
          first
          | exact hcopy
          | exact absurd rfl (hfixed _)
          | exact absurd rfl (hfixed' _)
  | cons e rest =>
    obtain ⟨name, t⟩ := e
    obtain ⟨⟨hname, hown, ht⟩, hrest⟩ := List.forall_mem_cons.1 h
    rw [applyAll, applyAll, Action.outcome_bind, Action.outcome_bind]
    have hstep := parallel_applyStep hname hown ht hs hv inPlace
    generalize (applyStep name t v inPlace).outcome s = x at hstep ⊢
    generalize (applyStep name t v' inPlace).outcome s' = x' at hstep ⊢
    cases hstep with
    | error fault hs => exact .error fault hs
    | ok next next' hs hnext => exact parallel_applyFrom hrest hs hnext

/-- **A pipeline of oblivious transforms tells nothing of the bytes but their length.** Two values
of one kind with equally many bytes are worked on from one store. Both runs give results of the same
length, which are both the value itself or neither, or they fail by the same fault; and either way
they leave the same generators, with what has been drawn from them, and the same journal. -/
theorem outline_run_congr {r : Registry} (hr : r.IsOwn) {transforms : Value} {bs bs' : Bytes}
    (hv : s.Holds v bs) (hv' : s.Holds v' bs') (hkind : v.kind = v'.kind)
    (hlength : bs.length = bs'.length)
    (hoblivious : ∀ read built s₁, steps s.bytes transforms = .ok read →
      (build r read).outcome s = (.ok built, s₁) → ∀ e ∈ built, e.2.IsOblivious)
    (inPlace : Bool) :
    outline v ((run r v transforms inPlace).outcome s)
      = outline v' ((run r v' transforms inPlace).outcome s) := by
  have hnull := Value.isNull_of_asBytes? hv.asBytes?
  have hnull' := Value.isNull_of_asBytes? hv'.asBytes?
  cases hread : steps s.bytes transforms with
  | error fault =>
    simp only [run, hnull, hnull', Bool.false_eq_true, if_false, Action.outcome_bind,
      Action.outcome_reading, hread]
    rfl
  | ok read =>
    rw [outcome_run_of_steps hnull hread, outcome_run_of_steps hnull' hread, Action.outcome_bind,
      Action.outcome_bind]
    rcases hbuild : (build r read).outcome s with ⟨fault | built, s₁⟩
    · rfl
    · have hext : s.Extends s₁ := extends_of_build hbuild
      have hheld : s₁.Holds v bs :=
        ⟨by rw [hext.bytes]; exact hv.asBytes?, by rw [hext.buffers]; exact hv.isLive⟩
      have hheld' : s₁.Holds v' bs' :=
        ⟨by rw [hext.bytes]; exact hv'.asBytes?, by rw [hext.buffers]; exact hv'.isLive⟩
      refine outline_of_parallel (parallel_applyAll (fun e he => ?_)
        (Store.alike_of_holds hheld hheld' rfl rfl) (.refl hheld hheld' hkind hlength) inPlace)
      exact ⟨isSome_asText?_of_build hbuild e he, isOwn_of_build hr hbuild e he,
        hoblivious read built s₁ hread hbuild e he⟩

/-- Two buffers of three bytes and a generator with a script. -/
def twinStore : Store := ⟨[[1, 2, 3], [0x80, 0, 7]], [.scripted [0, 1]], []⟩

/-- The steps of a pipeline that draws, compares and appends. -/
def twinSteps : List Step :=
  [⟨.text "shuffle", .dict [(.text "rng", .generator .supplied 0)]⟩,
    ⟨.text "sort", .dict [(.text "comparator", .comparator .descending)]⟩,
    ⟨.text "concat", .dict [(.text "second", .bytes [5])]⟩]

/-- The transforms of these steps. -/
def twinTransforms : List (Value × Transform) :=
  [(.text "shuffle", .shuffle .supplied 0), (.text "sort", .sort (some .descending)),
    (.text "concat", .concat [5])]

/-- The steps as entries. -/
def twinEntries : Value := .list (twinSteps.map Step.toValue)

theorem steps_twin : steps twinStore.bytes twinEntries = .ok twinSteps := by
  cbv

theorem build_twin :
    (build .builtin twinSteps).outcome twinStore = (.ok twinTransforms, twinStore) := by
  cbv

theorem isOblivious_twin : ∀ e ∈ twinTransforms, e.2.IsOblivious := by
  have htotal : Comparator.IsTotal .descending := fun a b => ⟨_, rfl⟩
  simp [twinTransforms, Transform.IsOblivious, Transform.kind?, htotal]

/-- Two runs in place: both give a new buffer of four bytes, have drawn below three and below two,
and have entered three steps into the journal. -/
theorem outline_run_congr_twin :
    outline (.buffer 0) ((run .builtin (.buffer 0) twinEntries true).outcome twinStore)
        = outline (.buffer 1) ((run .builtin (.buffer 1) twinEntries true).outcome twinStore) ∧
      (outline (.buffer 0) ((run .builtin (.buffer 0) twinEntries true).outcome twinStore)).1
        = .ok (4, false) ∧
      ((run .builtin (.buffer 0) twinEntries true).outcome twinStore).2.generators.map (·.calls?)
        = [some [3, 2]] ∧
      ((run .builtin (.buffer 0) twinEntries true).outcome twinStore).2.journal.length = 3 := by
  have hrun : (run .builtin (.buffer 0) twinEntries true).outcome twinStore
      = (applyAll (.buffer 0) true twinTransforms).outcome twinStore :=
    outcome_run rfl steps_twin build_twin
  refine ⟨?_, by rw [hrun]; rfl, by rw [hrun]; rfl, by rw [hrun]; rfl⟩
  have hfirst : twinStore.Holds (.buffer 0) [1, 2, 3] := Store.holds_buffer (by decide) rfl
  have hsecond : twinStore.Holds (.buffer 1) [0x80, 0, 7] := Store.holds_buffer (by decide) rfl
  refine outline_run_congr Registry.isOwn_builtin hfirst hsecond rfl rfl ?_ true
  intro read built s₁ hread hbuilt
  obtain rfl : twinSteps = read := Except.ok.inj (steps_twin.symm.trans hread)
  rw [build_twin] at hbuilt
  cases hbuilt
  exact isOblivious_twin

end Pipeline

end Octets
