import Octets.Proofs.Bytes.Bitwise
import Octets.Proofs.Transform.Sequence
import Octets.Proofs.Transform.Shuffle

/-!
# A shuffle rearranges places

A shuffle of `n` bytes asks its generator for numbers below `n`, `n - 1`, …, 2 (`Rearrange.bounds`),
and for nothing else. The answers fix a permutation of the places, whatever the bytes are.

* `exists_place` — the shuffled bytes are the bytes at the places of that permutation.
* `shuffle_map`, `shuffle_combine` — what is done byte by byte may be done before a shuffle or
  behind it.
* `exists_applyEach` — one transform shuffles value after value; the induction is on the values, and
  the answers that each takes follow those of the values before it in one stream.
* `shuffle_positions` — all of it for the transform.
-/

namespace Octets

open Octets.Random (Generator)

/-! ## Streams of answers -/

namespace Random.Generator

/-- The answers of a generator to draws below each of the bounds, and the generator behind them. -/
def answers : List Nat → Generator → List Nat × Generator
  | [], g => ([], g)
  | bound :: rest, g =>
    let (j, g) := g.draw (bound - 1)
    let (js, g) := answers rest g
    (j.val :: js, g)

@[simp] theorem length_answers (bounds : List Nat) (g : Generator) :
    (answers bounds g).1.length = bounds.length := by
  induction bounds generalizing g with
  | nil => rfl
  | cons bound rest ih => simp [answers, ih]

/-- Further answers go on where the first ones have stopped. -/
theorem answers_append (first second : List Nat) (g : Generator) :
    answers (first ++ second) g
      = ((answers first g).1 ++ (answers second (answers first g).2).1,
        (answers second (answers first g).2).2) := by
  induction first generalizing g with
  | nil => rfl
  | cons bound rest ih => simp only [List.cons_append, answers, ih]

/-- A supplied generator keeps a list of the bounds. -/
theorem answers_supplied {bounds : List Nat} (h : ∀ bound ∈ bounds, 0 < bound)
    (answer : List Nat → (i : Nat) → Fin (i + 1)) (calls : List Nat) :
    (answers bounds (.supplied answer calls)).2 = .supplied answer (calls ++ bounds) := by
  induction bounds generalizing calls with
  | nil => simp [answers]
  | cons bound rest ih =>
    obtain ⟨hbound, hrest⟩ := List.forall_mem_cons.1 h
    have hasked : bound - 1 + 1 = bound := Nat.sub_add_cancel hbound
    simp only [answers, draw, hasked, ih hrest, List.append_assoc, List.singleton_append]

end Random.Generator

/-! ## Places -/

namespace Rearrange

/-- What a shuffle of `n` elements asks for: numbers below `n`, `n - 1`, …, 2. -/
def bounds (n : Nat) : List Nat := (List.range' 2 (n - 1)).reverse

theorem bounds_add_two (i : Nat) : bounds (i + 2) = (i + 2) :: bounds (i + 1) := by
  show (List.range' 2 (i + 1)).reverse = (i + 2) :: (List.range' 2 i).reverse
  rw [List.range'_1_concat, List.reverse_append, List.reverse_singleton, List.singleton_append,
    Nat.add_comm]

theorem pos_of_mem_bounds {n bound : Nat} (h : bound ∈ bounds n) : 0 < bound := by
  simp only [bounds, List.mem_reverse, List.mem_range'_1] at h
  omega

/-- The draws of a shuffle are the answers to its bounds. -/
theorem draws_eq_answers (n : Nat) (g : Generator) : draws (n - 1) g = g.answers (bounds n) := by
  have hlast : ∀ i g, draws i g = Generator.answers (bounds (i + 1)) g := by
    intro i
    induction i with
    | zero => exact fun g => rfl
    | succ i ih =>
      intro g
      simp only [bounds_add_two, draws, Generator.answers, ih]
      rfl
  cases n with
  | zero => rfl
  | succ n => exact hlast n g

theorem swapIfInBounds_perm {α : Type} (a : Array α) (i j : Nat) :
    (a.swapIfInBounds i j).Perm a := by
  rw [Array.swapIfInBounds_def]
  split
  · split
    · exact Array.swap_perm _ _
    · exact .refl a
  · exact .refl a

/-- Swaps keep the elements, each as often as it was there. -/
theorem swapDown_perm {α : Type} (i : Nat) (js : List Nat) (a : Array α) :
    (swapDown i js a).Perm a := by
  fun_induction swapDown i js a with
  | case1 i j js a ih => exact ih.trans (swapIfInBounds_perm a (i + 1) j)
  | case2 => exact .refl _

end Rearrange

open Rearrange (bounds)

namespace Bytes

/-- At every place there is the byte that `bs` has at the place of the permutation. -/
def IsArranged {n : Nat} (out bs : Bytes) (p : Equiv.Perm (Fin n)) : Prop :=
  out.length = n ∧ ∀ k : Fin n, out[k.val]? = bs[(p k).val]?

theorem shuffle_snd_eq_answers (bs : Bytes) (g : Generator) :
    (bs.shuffle g).2 = (g.answers (bounds bs.length)).2 := by
  rw [← Rearrange.draws_eq_answers]
  rfl

/-- **The answers fix where the bytes come from**, whatever the bytes are. -/
theorem exists_place :
    ∃ place : (n : Nat) → List Nat → Equiv.Perm (Fin n), ∀ (bs : Bytes) (g : Generator),
      (bs.shuffle g).1.IsArranged bs (place bs.length (g.answers (bounds bs.length)).1) := by
  have hperm : ∀ (n : Nat) (js : List Nat), ∃ p : Equiv.Perm (Fin n),
      Rearrange.Legal (n - 1) js → ∀ k : Fin n, Rearrange.origin (n - 1) js k = p k := by
    intro n js
    by_cases hlegal : Rearrange.Legal (n - 1) js
    · obtain ⟨p, harranges, -⟩ := Rearrange.existsUnique_perm hlegal
      exact ⟨p, fun _ => (Rearrange.arranges_iff hlegal p).1 harranges⟩
    · exact ⟨1, fun h => absurd h hlegal⟩
  choose place hplace using hperm
  refine ⟨place, fun bs g => ⟨Rearrange.length_shuffle bs g, fun k => ?_⟩⟩
  rw [Rearrange.getElem?_shuffle, hplace _ _ (Rearrange.legal_draws _ g),
    Rearrange.draws_eq_answers]

theorem shuffle_perm (bs : Bytes) (g : Generator) : (bs.shuffle g).1.Perm bs :=
  (Array.perm_iff_toList_perm.1
    (Rearrange.swapDown_perm _ _ bs.toArray) : List.Perm _ bs.toArray.toList)

/-- **What is done to every byte may be done before a shuffle or behind it.** -/
theorem shuffle_map (f : UInt8 → UInt8) (bs : Bytes) (g : Generator) :
    (Bytes.shuffle (bs.map f) g).1 = (bs.shuffle g).1.map f := by
  apply List.ext_getElem?
  intro k
  rw [Rearrange.getElem?_shuffle, List.length_map, List.getElem?_map, List.getElem?_map,
    Rearrange.getElem?_shuffle]

/-- **Bytes that are shuffled alike may be combined before a shuffle or behind it.** -/
theorem shuffle_combine (mode : Mode) {bs second : Bytes} (h : second.length = bs.length)
    (g : Generator) :
    ((bs.combine mode second).shuffle g).1
      = (bs.shuffle g).1.combine mode (second.shuffle g).1 := by
  have hlength : (bs.combine mode second).length = bs.length := by
    simp [combine, h]
  apply List.ext_getElem?
  intro k
  rw [Rearrange.getElem?_shuffle, hlength, combine, combine, List.getElem?_zipWith,
    List.getElem?_zipWith, Rearrange.getElem?_shuffle, Rearrange.getElem?_shuffle, h]

end Bytes

/-! ## The transform -/

namespace Transform

/-- The transform does `f` to every byte, and draws nothing. -/
def IsBytewise (t : Transform) (f : UInt8 → UInt8) : Prop :=
  ∀ (s : Store) (v : Value) (bs : Bytes), s.Holds v bs → Makes [t] s v (bs.map f) s.generators

/-- Applies the transform to one value after the other, and gives the bytes that each of them had
and those that have been made of it. -/
def applyEach (t : Transform) : List (Value × Bool) → Action (List (Bytes × Bytes))
  | [] => return []
  | (v, inPlace) :: rest => do
    let before ← Action.reading fun contents => v.byteString contents
    let ref ← t.apply v inPlace
    let after ← Action.read ref
    let more ← applyEach t rest
    return (before, after) :: more

section

variable {s : Store} {v : Value} {bs : Bytes} {generator : Nat} {g : Generator}

theorem isBytewise_negate : negate.IsBytewise (~~~ ·) :=
  fun _ _ _ hv => makes_of_effect rfl hv rfl

theorem makes_shuffle (kind : GeneratorKind) (hv : s.Holds v bs)
    (hg : s.generators[generator]? = some g) :
    Makes [shuffle kind generator] s v (bs.shuffle g).1
      (s.generators.set generator (g.answers (bounds bs.length)).2) := by
  refine makes_of_effect rfl hv ?_
  simp only [effect, hg, Bytes.shuffle_snd_eq_answers]

theorem makes_shuffle_of_isBytewise (kind : GeneratorKind) {t : Transform} {f : UInt8 → UInt8}
    (ht : t.IsBytewise f) (hv : s.Holds v bs) (hg : s.generators[generator]? = some g) :
    ∃ out gs, Makes [t, shuffle kind generator] s v out gs ∧
      Makes [shuffle kind generator, t] s v out gs := by
  refine ⟨(bs.shuffle g).1.map f, s.generators.set generator (g.answers (bounds bs.length)).2, ?_,
    ?_⟩
  · refine (ht s v bs hv).cons fun s' ref hheld hgs => ?_
    have hmade := makes_shuffle kind hheld (hgs ▸ hg)
    rwa [Bytes.shuffle_map, List.length_map, hgs] at hmade
  · refine (makes_shuffle kind hv hg).cons fun s' ref hheld hgs => ?_
    exact hgs ▸ ht s' _ _ hheld

theorem makes_shuffle_of_bitwise (kind : GeneratorKind) (mode : Mode) {second : Bytes}
    (hlength : second.length = bs.length) (hv : s.Holds v bs)
    (hg : s.generators[generator]? = some g) :
    Makes [bitwise second mode, shuffle kind generator] s v
        ((bs.shuffle g).1.combine mode (second.shuffle g).1)
        (s.generators.set generator (g.answers (bounds bs.length)).2) ∧
      Makes [shuffle kind generator, bitwise (second.shuffle g).1 mode] s v
        ((bs.shuffle g).1.combine mode (second.shuffle g).1)
        (s.generators.set generator (g.answers (bounds bs.length)).2) := by
  constructor
  · have hfirst := makes_of_effect (t := bitwise second mode) rfl hv (effect_bitwise hlength.symm)
    refine hfirst.cons fun s' ref hheld hgs => ?_
    have hmade := makes_shuffle kind hheld (hgs ▸ hg)
    rwa [Bytes.shuffle_combine mode hlength, Bytes.length_combine mode hlength.symm, hgs] at hmade
  · refine (makes_shuffle kind hv hg).cons fun s' ref hheld hgs => ?_
    have hshuffled : (bs.shuffle g).1.length = (second.shuffle g).1.length := by
      rw [Rearrange.length_shuffle, Rearrange.length_shuffle, hlength]
    exact hgs ▸ makes_of_effect (t := bitwise _ mode) rfl hheld (effect_bitwise hshuffled)

theorem outcome_shuffle_of_isFixed (kind : GeneratorKind) (generator : Nat) {inPlace : Bool}
    (hv : s.Holds v bs) (hfixed : v.IsFixed inPlace) :
    ((shuffle kind generator).apply v inPlace).outcome s
      = (.error (.unusable (.notMutable v.kind) (some "shuffle")), s) := by
  obtain ⟨rfl, hbuffer⟩ := hfixed
  obtain ⟨out, gs, heffect⟩ := effect_shuffle kind generator bs s.generators
  have hrun : ((shuffle kind generator).apply v true).outcome s
      = (shuffle kind generator).result v true bs s :=
        outcome_applyShuffle hv.asBytes? kind generator
  rw [hrun, result_of_ok heffect, deliver_of_not_buffer hbuffer rfl]
  rfl

/-! ### Value after value -/

/-- No buffer is ever taken out of a store, so a byte string stays one. -/
theorem exists_holds_of_apply {t : Transform} (ht : t.IsOwn) {w : Value} {inPlace : Bool}
    {ref : Nat} {s' : Store} (h : (t.apply w inPlace).outcome s = (.ok ref, s'))
    (hv : s.Holds v bs) :
    ∃ bs', s'.Holds v bs' := by
  have hdelivered := delivered_apply ht s w inPlace
  rw [h] at hdelivered
  have hlength : s.buffers.length ≤ s'.buffers.length := by
    cases hdelivered with
    | overwritten => simp
    | added => simp
  rcases cases_of_asBytes? hv.asBytes? with ⟨other, rfl, -⟩ | rfl | rfl
  · exact ⟨_, Store.holds_buffer ((hv.isLive other rfl).trans_le hlength) rfl⟩
  · exact ⟨bs, rfl, by simp⟩
  · exact ⟨bs, rfl, by simp⟩

/-- **One transform takes its answers from one stream**, each value those behind the ones of the
value before it. -/
theorem exists_applyEach (kind : GeneratorKind) {calls : List (Value × Bool)}
    (hg : s.generators[generator]? = some g)
    (hcalls : ∀ call ∈ calls, (∃ bs, s.Holds call.1 bs) ∧ ¬ call.1.IsFixed call.2) :
    ∃ done s', (applyEach (shuffle kind generator) calls).outcome s = (.ok done, s') ∧
      done.length = calls.length ∧
      s'.generators
        = s.generators.set generator (g.answers (done.flatMap fun e => bounds e.1.length)).2 ∧
      ∃ taken : List (List Nat),
        taken.flatten = (g.answers (done.flatMap fun e => bounds e.1.length)).1 ∧
        List.Forall₂ (fun e js => ∃ g', js = (g'.answers (bounds e.1.length)).1 ∧
          e.2 = (Bytes.shuffle e.1 g').1) done taken := by
  induction calls generalizing s g with
  | nil =>
    obtain ⟨hlt, rfl⟩ := List.getElem?_eq_some_iff.1 hg
    refine ⟨[], s, rfl, rfl, ?_, [], rfl, .nil⟩
    exact (List.set_getElem_self hlt).symm
  | cons call rest ih =>
    obtain ⟨⟨⟨bs, hv⟩, hfixed⟩, hrest⟩ := List.forall_mem_cons.1 hcalls
    obtain ⟨ref, s₁, hrun, hheld, hgs⟩ := makes_singleton_iff.1 (makes_shuffle kind hv hg) _ hfixed
    generalize hlater : (g.answers (bounds bs.length)).2 = later at hgs
    have hg₁ : s₁.generators[generator]? = some later := by
      rw [hgs]
      exact List.getElem?_set_self (List.getElem?_eq_some_iff.1 hg).1
    -- the values to come may have other bytes now, but they are byte strings still
    have hrest₁ : ∀ other ∈ rest, (∃ bs, s₁.Holds other.1 bs) ∧ ¬ other.1.IsFixed other.2 := by
      intro other hother
      obtain ⟨⟨bs', hv'⟩, hfixed'⟩ := hrest other hother
      exact ⟨exists_holds_of_apply (t := shuffle kind generator) rfl hrun hv', hfixed'⟩
    obtain ⟨done, s', hdone, hlength, hgs', taken, htaken, hsteps⟩ := ih hg₁ hrest₁
    refine ⟨(bs, (bs.shuffle g).1) :: done, s', ?_, ?_, ?_,
      (g.answers (bounds bs.length)).1 :: taken, ?_, ?_⟩
    · have hbefore : call.1.byteString s.bytes = .ok bs := by
        rw [Value.byteString, hv.asBytes?]
      simp [applyEach, hbefore, hrun, hheld.bytes_eq, hdone]
    · rw [List.length_cons, hlength, List.length_cons]
    · rw [hgs', hgs, List.set_set, List.flatMap_cons, Generator.answers_append, hlater]
    · rw [List.flatten_cons, htaken, List.flatMap_cons, Generator.answers_append, hlater]
    · exact .cons ⟨g, rfl, rfl⟩ hsteps

end

/-! ## Shuffling -/

/-- **A shuffle acts on places only.** Of bytes of one length it asks for the same bounds, and the
answers fix one permutation of the places; nothing else decides what it makes. So it keeps every
byte as often as it is there, and what is done byte by byte may be done before it or behind it, by
one function or by two byte strings that are shuffled alike. Applied to values one after the other
it takes its answers from one stream. What cannot be overwritten in place is refused before anything
is drawn. -/
theorem shuffle_positions :
    (∀ n answer calls, (Generator.answers (bounds n) (.supplied answer calls)).2
        = .supplied answer (calls ++ bounds n)) ∧
      negate.IsBytewise (~~~ ·) ∧
      ∃ place : (n : Nat) → List Nat → Equiv.Perm (Fin n),
        ∀ (s : Store) (kind : GeneratorKind) (generator : Nat) (g : Generator),
          s.generators[generator]? = some g →
          (∀ (v : Value) (bs : Bytes), s.Holds v bs →
            (∃ out, out.IsArranged bs (place bs.length (g.answers (bounds bs.length)).1) ∧
              out.Perm bs ∧
              Makes [shuffle kind generator] s v out
                (s.generators.set generator (g.answers (bounds bs.length)).2)) ∧
            (∀ inPlace, v.IsFixed inPlace →
              ((shuffle kind generator).apply v inPlace).outcome s
                = (.error (.unusable (.notMutable v.kind) (some "shuffle")), s)) ∧
            (∀ t f, IsBytewise t f →
              ∃ out gs, Makes [t, shuffle kind generator] s v out gs ∧
                Makes [shuffle kind generator, t] s v out gs) ∧
            ∀ (mode : Mode) (s' : Store) (w : Value) (second : Bytes) (kind' : GeneratorKind)
              (generator' : Nat), s'.Holds w second → second.length = bs.length →
              s'.generators[generator']? = some g →
              ∃ shuffled out gs gs', Makes [shuffle kind' generator'] s' w shuffled gs' ∧
                Makes [bitwise second mode, shuffle kind generator] s v out gs ∧
                Makes [shuffle kind generator, bitwise shuffled mode] s v out gs) ∧
          ∀ calls : List (Value × Bool),
            (∀ call ∈ calls, (∃ bs, s.Holds call.1 bs) ∧ ¬ call.1.IsFixed call.2) →
            ∃ done s', (applyEach (shuffle kind generator) calls).outcome s = (.ok done, s') ∧
              done.length = calls.length ∧
              s'.generators
                = s.generators.set generator
                  (g.answers (done.flatMap fun e => bounds e.1.length)).2 ∧
              ∃ taken : List (List Nat),
                taken.flatten = (g.answers (done.flatMap fun e => bounds e.1.length)).1 ∧
                List.Forall₂ (fun e js => js.length = (bounds e.1.length).length ∧
                  e.2.IsArranged e.1 (place e.1.length js)) done taken := by
  obtain ⟨place, hplace⟩ := Bytes.exists_place
  refine ⟨?_, isBytewise_negate, place, ?_⟩
  · intro n answer calls
    exact Generator.answers_supplied (fun _ => Rearrange.pos_of_mem_bounds) answer calls
  intro s kind generator g hg
  refine ⟨fun v bs hv => ⟨?_, ?_, ?_, ?_⟩, ?_⟩
  · exact ⟨_, hplace bs g, bs.shuffle_perm g, makes_shuffle kind hv hg⟩
  · intro inPlace hfixed
    exact outcome_shuffle_of_isFixed kind generator hv hfixed
  · intro t f ht
    exact makes_shuffle_of_isBytewise kind ht hv hg
  · intro mode s' w second kind' generator' hw hlength hg'
    obtain ⟨hbefore, hbehind⟩ := makes_shuffle_of_bitwise kind mode hlength hv hg
    exact ⟨_, _, _, _, makes_shuffle kind' hw hg', hbefore, hbehind⟩
  · intro calls hcalls
    obtain ⟨done, s', hrun, hlength, hgs, taken, htaken, hsteps⟩ :=
      exists_applyEach kind hg hcalls
    refine ⟨done, s', hrun, hlength, hgs, taken, htaken, hsteps.imp ?_⟩
    rintro e js ⟨g', rfl, hout⟩
    exact ⟨Generator.length_answers _ _, hout ▸ hplace e.1 g'⟩

/-- Two of three bytes are alike, so their places cannot be told apart by the bytes. -/
theorem shuffle_positions_twins :
    ∃ out : Bytes, out.Perm [7, 7, 9] ∧
      Makes [shuffle .supplied 0] ⟨[[7, 7, 9]], [.scripted [0, 1]], []⟩ (.buffer 0) out
        [((Generator.scripted [0, 1]).answers [3, 2]).2] := by
  have hheld : Store.Holds ⟨[[7, 7, 9]], [.scripted [0, 1]], []⟩ (.buffer 0) [7, 7, 9] :=
    Store.holds_buffer (by decide) rfl
  obtain ⟨-, -, place, hshuffle⟩ := shuffle_positions
  obtain ⟨⟨out, -, hperm, hmakes⟩, -⟩ := (hshuffle _ .supplied 0 _ rfl).1 _ _ hheld
  exact ⟨out, hperm, hmakes⟩

end Transform

end Octets
