import Octets.Proofs.Bytes.Bitwise
import Octets.Proofs.Pipeline.Fold
import Octets.Proofs.Transform.Reverse
import Octets.Proofs.Transform.Sequence

/-!
# Transforms that may stand for each other

Two sequences of transforms agree on bytes of a length (`Transform.Agree`) if they make the same of
all of them, whichever of the transforms work in place, and if one may stand for the other inside of
a pipeline, where such bytes come to it.

* `uncounted_effects_congr` — what a pipeline answers depends on what its parts make, not on how
  many transforms they are; the induction is on the transforms in front.
* `agree_of_effects` — sequences with the same effects agree.
* `boolean_algebra` — the laws of Boolean algebra for the transforms that work byte by byte.
-/

namespace Octets

open Octets.Random (Generator)

/-! ## Answers of pipelines -/

namespace Pipeline

/-- What a caller gets of a run: the bytes of the result, or the fault, and the generators behind
it. -/
def answer (x : Except Fault Nat × Store) : Except Fault Bytes × List Generator :=
  (x.1.map x.2.bytes, x.2.generators)

/-- A fault without the number of steps before it. -/
def uncounted (x : Except (Nat × Fault) Bytes × List Generator) :
    Except Fault Bytes × List Generator :=
  (x.1.mapError (·.2), x.2)

/-- The entries are read, and built, as these transforms. The store has the generators of their
seeds then. -/
def StandsFor (s : Store) (entries : Value) (ts : List Transform) (s' : Store) : Prop :=
  ∃ read built, steps s.bytes entries = .ok read ∧
    (build .builtin read).outcome s = (.ok built, s') ∧ built.map (·.2) = ts

section

variable {bs mid out : Bytes} {gs gs' : List Generator} {ts us before after : List Transform}

theorem answer_eq_uncounted (count : Nat) (x : Except Fault Nat × Store) :
    answer x = uncounted (seen count x) := by
  rcases x with ⟨fault | ref, s⟩ <;> rfl

theorem uncounted_effects (done done' : Nat) :
    uncounted (effects done bs gs ts) = uncounted (effects done' bs gs ts) := by
  induction ts generalizing done done' bs gs with
  | nil => rfl
  | cons t rest ih =>
    unfold effects
    cases t.effect bs gs with
    | error fault => rfl
    | ok made => exact ih (done + 1) (done' + 1)

/-- Transforms in front that succeed pass on what they make. -/
theorem uncounted_effects_append (done : Nat)
    (h : Transform.effectInTurn ts bs gs = .ok (mid, gs')) :
    uncounted (effects done bs gs (ts ++ after)) = uncounted (effects 0 mid gs' after) := by
  induction ts generalizing done bs gs with
  | nil =>
    obtain ⟨rfl, rfl⟩ := Prod.mk.inj (Except.ok.inj h)
    exact uncounted_effects done 0
  | cons t rest ih =>
    rw [Transform.effectInTurn, List.foldlM_cons] at h
    obtain ⟨⟨next, gs₁⟩, heffect, hrest⟩ := ok_of_bind h
    rw [List.cons_append, effects, heffect]
    exact ih (done + 1) hrest

/-- **What stands inside of a pipeline may be exchanged for what makes the same.** -/
theorem uncounted_effects_congr (done done' : Nat)
    (h : ∀ mid gs', Transform.effectInTurn before bs gs = .ok (mid, gs') →
      ∃ made, Transform.effectInTurn ts mid gs' = .ok made ∧
        Transform.effectInTurn us mid gs' = .ok made) :
    uncounted (effects done bs gs (before ++ ts ++ after))
      = uncounted (effects done' bs gs (before ++ us ++ after)) := by
  induction before generalizing done done' bs gs with
  | nil =>
    obtain ⟨⟨out, gs'⟩, hts, hus⟩ := h bs gs rfl
    rw [List.nil_append, List.nil_append, uncounted_effects_append done hts,
      uncounted_effects_append done' hus]
  | cons t rest ih =>
    simp only [List.cons_append, effects]
    cases heffect : t.effect bs gs with
    -- the same fault, before what is exchanged is reached
    | error fault => rfl
    | ok made =>
      refine ih (done + 1) (done' + 1) fun mid gs' hrest => h mid gs' ?_
      rw [Transform.effectInTurn_cons heffect]
      exact hrest

end

/-- A run answers with the effects of its transforms. -/
theorem answer_run {s s' : Store} {data entries : Value} {bs : Bytes} {ts : List Transform}
    {inPlace : Bool} (hdata : s.Holds data bs) (hplace : inPlace = true → ∃ ref, data = .buffer ref)
    (h : StandsFor s entries ts s') (hw : ∀ t ∈ ts, t.IsWritable) :
    answer ((run .builtin data entries inPlace).outcome s)
      = uncounted (effects 0 bs s'.generators ts) := by
  obtain ⟨read, built, hsteps, hbuilt, rfl⟩ := h
  have hown := isOwn_of_build Registry.isOwn_builtin hbuilt
  have hgood : ∀ e ∈ built, e.2.IsOwn ∧ e.2.IsWritable := fun e he =>
    ⟨hown e he, hw e.2 (List.mem_map_of_mem he)⟩
  rw [outcome_run (Value.isNull_of_asBytes? hdata.asBytes?) hsteps hbuilt,
    answer_eq_uncounted s'.journal.length,
    seen_applyAll hgood ((extends_of_build hbuilt).holds hdata) hplace]

theorem StandsFor.isOwn {s s' : Store} {entries : Value} {ts : List Transform}
    (h : StandsFor s entries ts s') : ∀ t ∈ ts, t.IsOwn := by
  obtain ⟨read, built, -, hbuilt, rfl⟩ := h
  exact isOwn_map (isOwn_of_build Registry.isOwn_builtin hbuilt)

end Pipeline

/-! ## Agreement -/

namespace Transform

open Pipeline (answer StandsFor)

/-- On bytes of this length the one sequence may stand for the other. Applied in turn to any byte
string both succeed with the same bytes, whichever of their transforms work in place. A pipeline
that has the one where the other has the other answers the same, if what comes to that place has the
length. -/
structure Agree (n : Nat) (ts us : List Transform) : Prop where
  inTurn : ∀ (s : Store) (v : Value) (bs : Bytes), s.Holds v bs → bs.length = n →
    ∃ out, Makes ts s v out s.generators ∧ Makes us s v out s.generators
  inPipeline : ∀ (s s' : Store) (data : Value) (bs : Bytes) (inPlace : Bool)
    (entries entries' : Value) (before after : List Transform), s.Holds data bs →
    (inPlace = true → ∃ ref, data = .buffer ref) →
    StandsFor s entries (before ++ ts ++ after) s' →
      StandsFor s entries' (before ++ us ++ after) s' →
    (∀ t ∈ before ++ after, t.IsWritable) →
    (∀ mid gs, Makes before s' data mid gs → mid.length = n) →
    answer ((Pipeline.run .builtin data entries inPlace).outcome s)
      = answer ((Pipeline.run .builtin data entries' inPlace).outcome s)

section

variable {n : Nat} {ts us : List Transform} {bs second : Bytes} {gs : List Generator}

/-- **Sequences with the same effects agree.** -/
theorem agree_of_effects (hgood : ∀ t ∈ ts ++ us, t.IsOwn ∧ t.IsWritable)
    (h : ∀ bs gs, bs.length = n →
      ∃ out, effectInTurn ts bs gs = .ok (out, gs) ∧ effectInTurn us bs gs = .ok (out, gs)) :
    Agree n ts us where
  inTurn := by
    intro s v bs hv hlength
    obtain ⟨out, hts, hus⟩ := h bs s.generators hlength
    exact ⟨out, makes_of_effects (fun t ht => (hgood t (List.mem_append_left us ht)).1) hv hts,
      makes_of_effects (fun t ht => (hgood t (List.mem_append_right ts ht)).1) hv hus⟩
  inPipeline := by
    intro s s' data bs inPlace entries entries' before after hdata hplace hentries
      hentries' hw hlength
    have hbefore : ∀ t ∈ before, t.IsOwn := fun t ht => hentries.isOwn t (by simp [ht])
    have hheld : s'.Holds data bs := by
      obtain ⟨read, built, -, hbuilt, -⟩ := hentries
      exact (Pipeline.extends_of_build hbuilt).holds hdata
    -- what is exchanged can always be described, so only the rest of the pipeline is asked
    have hwith : ∀ vs : List Transform, (∀ t ∈ vs, t.IsWritable) →
        ∀ t ∈ before ++ vs ++ after, t.IsWritable := by
      intro vs hvs t ht
      simp only [List.mem_append] at ht hw
      rcases ht with (ht | ht) | ht
      · exact hw t (Or.inl ht)
      · exact hvs t ht
      · exact hw t (Or.inr ht)
    rw [Pipeline.answer_run hdata hplace hentries
        (hwith ts fun t ht => (hgood t (List.mem_append_left us ht)).2),
      Pipeline.answer_run hdata hplace hentries'
        (hwith us fun t ht => (hgood t (List.mem_append_right ts ht)).2)]
    refine Pipeline.uncounted_effects_congr 0 0 fun mid gs hmid => ?_
    obtain ⟨out, hts, hus⟩ := h mid gs (hlength mid gs (makes_of_effects hbefore hheld hmid))
    exact ⟨(out, gs), hts, hus⟩

/-! ### Bytewise transforms in turn -/

theorem effectInTurn_bitwise {mode : Mode} (h : bs.length = second.length) :
    effectInTurn (bitwise second mode :: ts) bs gs = effectInTurn ts (bs.combine mode second) gs :=
  effectInTurn_cons (effect_bitwise h)

theorem effectInTurn_negate :
    effectInTurn (negate :: ts) bs gs = effectInTurn ts bs.complement gs :=
  effectInTurn_cons rfl

theorem effectInTurn_reverse :
    effectInTurn (reverse :: ts) bs gs = effectInTurn ts bs.reverse gs := by
  rw [← Bytes.swapReverse_eq_reverse]
  exact effectInTurn_cons rfl

/-- Two bitwise transforms in turn. -/
theorem effectInTurn_bitwise_bitwise {mode mode' : Mode} {third : Bytes}
    (h : bs.length = second.length) (h' : bs.length = third.length) :
    effectInTurn [bitwise second mode, bitwise third mode'] bs gs
      = .ok ((bs.combine mode second).combine mode' third, gs) := by
  rw [effectInTurn_bitwise h, effectInTurn_bitwise (by rw [Bytes.length_combine mode h, h']),
    effectInTurn_nil]

end

/-! ## Boolean algebra -/

section

variable {n : Nat} {b c : Bytes}

theorem agree_xor_self (hb : b.length = n) : Agree n [bitwise b .xor, bitwise b .xor] [] := by
  refine agree_of_effects (by simp [IsOwn, kind?, IsWritable]) fun bs gs h => ⟨bs, ?_, rfl⟩
  have hlength : bs.length = b.length := h.trans hb.symm
  rw [effectInTurn_bitwise_bitwise hlength hlength, Bytes.combine_xor_self hlength]

theorem agree_xor_xor (hb : b.length = n) (hc : c.length = n) :
    Agree n [bitwise b .xor, bitwise c .xor] [bitwise (b.combine .xor c) .xor] := by
  refine agree_of_effects (by simp [IsOwn, kind?, IsWritable]) fun bs gs h => ⟨_,
    effectInTurn_bitwise_bitwise (h.trans hb.symm) (h.trans hc.symm), ?_⟩
  have hboth : bs.length = (b.combine .xor c).length := by
    rw [Bytes.length_combine .xor (hb.trans hc.symm), hb, h]
  rw [effectInTurn_bitwise hboth, Bytes.combine_xor_xor, effectInTurn_nil]

theorem effectInTurn_or_and {bs : Bytes} (h : bs.length = b.length) (gs : List Generator) :
    effectInTurn [bitwise b .or, bitwise b .and] bs gs = .ok (b, gs) := by
  rw [effectInTurn_bitwise_bitwise h h, Bytes.combine_or_and h]

theorem agree_or_and (hb : b.length = n) :
    Agree n [bitwise b .or, bitwise b .and] [bitwise b .and, bitwise b .or] := by
  refine agree_of_effects (by simp [IsOwn, kind?, IsWritable]) fun bs gs h =>
    ⟨b, effectInTurn_or_and (h.trans hb.symm) gs, ?_⟩
  have hlength : bs.length = b.length := h.trans hb.symm
  rw [effectInTurn_bitwise_bitwise hlength hlength, Bytes.combine_and_or hlength]

/-- Inverting is moved to the front, past a mode that becomes another one. -/
theorem agree_bitwise_negate {mode mode' : Mode} (hb : b.length = n) (hc : c.length = n)
    (hinvert : ∀ bs : Bytes, (bs.combine mode b).complement = bs.complement.combine mode' c) :
    Agree n [bitwise b mode, negate] [negate, bitwise c mode'] := by
  refine agree_of_effects (by simp [IsOwn, kind?, IsWritable]) fun bs gs h =>
    ⟨(bs.combine mode b).complement, ?_, ?_⟩
  · rw [effectInTurn_bitwise (h.trans hb.symm), effectInTurn_negate, effectInTurn_nil]
  · rw [effectInTurn_negate, effectInTurn_bitwise (by rw [Bytes.length_complement, h, hc]), hinvert,
      effectInTurn_nil]

theorem agree_negate_negate (n : Nat) : Agree n [negate, negate] [] := by
  refine agree_of_effects (by simp [IsOwn, kind?, IsWritable]) fun bs gs _ => ⟨bs, ?_, rfl⟩
  rw [effectInTurn_negate, effectInTurn_negate, Bytes.complement_complement, effectInTurn_nil]

theorem agree_bitwise_reverse (hb : b.length = n) (mode : Mode) :
    Agree n [bitwise b mode, reverse] [reverse, bitwise b.reverse mode] := by
  refine agree_of_effects (by simp [IsOwn, kind?, IsWritable]) fun bs gs h =>
    ⟨(bs.combine mode b).reverse, ?_, ?_⟩
  · rw [effectInTurn_bitwise (h.trans hb.symm), effectInTurn_reverse, effectInTurn_nil]
  · have hlength : bs.reverse.length = b.reverse.length := by
      rw [List.length_reverse, List.length_reverse, h, hb]
    rw [effectInTurn_reverse, effectInTurn_bitwise hlength,
      Bytes.reverse_combine mode (h.trans hb.symm), effectInTurn_nil]

/-- **Boolean algebra of transforms.** Let `b` and `c` have the length of the bytes. "Exclusive or"
with `b` undoes itself, and with `b` and then `c` is the one with both combined. "Or" and then "and"
with `b` give `b`, and so the other way round. To invert behind "and" is to invert in front of "or"
with the inverted bytes, and so for "or" and "and"; with "exclusive or" it may be done in front as
well. Inverting undoes itself. To reverse behind any of the three is to reverse in front of it with
the reversed bytes. -/
theorem boolean_algebra (hb : b.length = n) (hc : c.length = n) :
    Agree n [bitwise b .xor, bitwise b .xor] [] ∧
    Agree n [bitwise b .xor, bitwise c .xor] [bitwise (b.combine .xor c) .xor] ∧
    (Agree n [bitwise b .or, bitwise b .and] [bitwise b .and, bitwise b .or] ∧
      ∀ (s : Store) (v : Value) (bs : Bytes), s.Holds v bs → bs.length = n →
        Makes [bitwise b .or, bitwise b .and] s v b s.generators) ∧
    Agree n [bitwise b .and, negate] [negate, bitwise b.complement .or] ∧
    Agree n [bitwise b .or, negate] [negate, bitwise b.complement .and] ∧
    Agree n [bitwise b .xor, negate] [negate, bitwise b .xor] ∧
    Agree n [negate, negate] [] ∧
    ∀ mode, Agree n [bitwise b mode, reverse] [reverse, bitwise b.reverse mode] := by
  have hcomplement : b.complement.length = n := by rw [Bytes.length_complement, hb]
  refine ⟨agree_xor_self hb, agree_xor_xor hb hc, ⟨agree_or_and hb, fun s v bs hv h => ?_⟩,
    ?_, ?_, ?_, agree_negate_negate n, agree_bitwise_reverse hb⟩
  · exact makes_of_effects (by simp [IsOwn, kind?]) hv
      (effectInTurn_or_and (h.trans hb.symm) s.generators)
  · exact agree_bitwise_negate hb hcomplement fun bs => Bytes.complement_combine_and bs b
  · exact agree_bitwise_negate hb hcomplement fun bs => Bytes.complement_combine_or bs b
  · exact agree_bitwise_negate hb hb fun bs => Bytes.complement_combine_xor bs b

end

/-- A step that combines two bytes with a mask. -/
def maskStep : Value :=
  .dict [(.text "name", .text "xor"), (.text "params", .dict [(.text "second", .text "0ff0")])]

/-- Two bytes are inverted, masked twice and reversed in place: without the masks it is the same.
And two bytes of a view that are combined by "or" and then by "and" are what they are combined
with. -/
theorem boolean_algebra_masks :
    answer ((Pipeline.run .builtin (.buffer 0)
        (.list [.text "not", maskStep, maskStep, .text "reverse"]) true).outcome ⟨[[1, 2]], [], []⟩)
      = answer ((Pipeline.run .builtin (.buffer 0)
        (.list [.text "not", .text "reverse"]) true).outcome ⟨[[1, 2]], [], []⟩) ∧
      Makes [bitwise [0x0f, 0xf0] .or, bitwise [0x0f, 0xf0] .and] .empty (.view [1, 2])
        [0x0f, 0xf0] [] := by
  have hheld : Store.Holds ⟨[[1, 2]], [], []⟩ (.buffer 0) [1, 2] :=
    Store.holds_buffer (by decide) rfl
  have hview := Store.empty.holds_view [1, 2]
  obtain ⟨htwice, -, ⟨-, habsorbed⟩, -⟩ :=
    boolean_algebra (n := 2) (b := [0x0f, 0xf0]) (c := [0, 0]) rfl rfl
  refine ⟨?_, habsorbed _ _ _ hview rfl⟩
  refine htwice.inPipeline _ ⟨[[1, 2]], [], []⟩ _ [1, 2] true _ _ [negate] [reverse] hheld
    (fun _ => ⟨0, rfl⟩) ⟨_, _, by cbv, by cbv, rfl⟩ ⟨_, _, by cbv, by cbv, rfl⟩
      (by simp [IsWritable]) ?_
  intro mid gs hmid
  obtain ⟨rfl, -⟩ := hmid.unique (makes_of_effect rfl hheld rfl)
  rfl

end Transform

end Octets
