import Mathlib.Order.Bounds.Defs
import Octets.Proofs.Pipeline.Fold
import Octets.Proofs.Pipeline.Frame

/-!
# What a pipeline does to the buffer it is given

A pipeline that works in place overwrites the buffer it is given as long as its steps reuse the
buffer. From the first step on that makes a new one, the given buffer is left alone, whatever comes
later and however the run ends.

* `outcome_applyStep_cases` — a step in place refuses and leaves the bytes, overwrites the buffer,
  or makes a new one and leaves the bytes.
* `exists_kept` — the bytes that a run leaves, by induction on the steps: `kept_of_refused`,
  `kept_of_made` and `kept_succ` are its three cases.
* `run_inPlace` — the given buffer has the bytes of the longest prefix of steps that succeeded and
  reused it, and it is the result just if all steps reuse it.
-/

namespace Octets.Pipeline

open Octets.Random (Generator)

/-! ## Reusing steps -/

/-- The transforms before this index succeed one after the other on new copies, and the transform at
it overwrites buffers of the length they leave. -/
def ReusesAt (bs : Bytes) (ts : List Transform) (s : Store) (i : Nat) : Prop :=
  ∃ mid t, (plain 0 bs (ts.take i) s).1 = .ok mid ∧ ts[i]? = some t ∧ t.reuses mid.length = true

/-- The same of effects. -/
def EffectReuses (bs : Bytes) (gs : List Generator) (ts : List Transform) (i : Nat) : Prop :=
  ∃ mid t, (effects 0 bs gs (ts.take i)).1 = .ok mid ∧ ts[i]? = some t ∧
    t.reuses mid.length = true

section

variable {bs out : Bytes} {gs gs' : List Generator} {t : Transform} {ts : List Transform}

theorem plain_take (h : ∀ t ∈ ts, t.IsOwn) (s : Store) (i : Nat) :
    (plain 0 bs (ts.take i) s).1 = (effects 0 bs s.generators (ts.take i)).1 := by
  rw [← plain_eq_effects fun t ht => h t (List.mem_of_mem_take ht)]

theorem reusesAt_iff (h : ∀ t ∈ ts, t.IsOwn) (s : Store) (i : Nat) :
    ReusesAt bs ts s i ↔ EffectReuses bs s.generators ts i := by
  rw [ReusesAt, EffectReuses, plain_take h]

/-- The count of the transforms before is of no account if none of them fails. -/
theorem effects_ok_iff (done done' : Nat) :
    (effects done bs gs ts).1 = .ok out ↔ (effects done' bs gs ts).1 = .ok out := by
  induction ts generalizing done done' bs gs with
  | nil => exact Iff.rfl
  | cons t rest ih =>
    unfold effects
    cases t.effect bs gs with
    | error fault => simp
    | ok after => exact ih (done + 1) (done' + 1)

theorem effects_cons_ok_iff {mid : Bytes} (h : t.effect bs gs = .ok (mid, gs')) :
    (effects 0 bs gs (t :: ts)).1 = .ok out ↔ (effects 0 mid gs' ts).1 = .ok out := by
  rw [effects, h]
  exact effects_ok_iff 1 0

theorem effectReuses_zero : EffectReuses bs gs (t :: ts) 0 ↔ t.reuses bs.length = true := by
  constructor
  · rintro ⟨mid, u, ⟨⟩, ⟨⟩, hreuses⟩
    exact hreuses
  · intro hreuses
    exact ⟨bs, t, rfl, rfl, hreuses⟩

theorem effectReuses_succ (h : t.effect bs gs = .ok (out, gs')) (i : Nat) :
    EffectReuses bs gs (t :: ts) (i + 1) ↔ EffectReuses out gs' ts i := by
  simp only [EffectReuses, List.take_succ_cons, List.getElem?_cons_succ, effects_cons_ok_iff h]

end

/-! ## One step -/

section

variable {t : Transform} {s : Store} {ref : Nat} {bs : Bytes}

/-- A reusing transform that cannot be described leaves the bytes as they are: it is a resize to the
present length. -/
theorem effect_of_describe_error (ht : t.IsOwn) (hreuses : t.reuses bs.length = true)
    {contents : Nat → Bytes} {fault : Fault} (hdesc : t.describe contents = .error fault)
    (gs : List Generator) : t.effect bs gs = .ok (bs, gs) := by
  cases t with
  | resize size =>
    have hsame : (bs.length : Int) = size := by simpa [Transform.reuses] using hreuses
    simp only [Transform.effect, if_pos hsame]
  | sort comparator => cases comparator <;> cases hdesc
  | added p values => simp [Transform.IsOwn, Transform.kind?] at ht
  | shift count direction => cases hreuses
  | copy offset length => cases hreuses
  | _ => cases hdesc

/-- A step in place on a buffer of the store refuses and leaves the bytes, overwrites the buffer
with its effect, or makes a new buffer and leaves the bytes. -/
theorem outcome_applyStep_cases (ht : t.IsOwn) (hv : s.Holds (.buffer ref) bs) (name : Value) :
    (∃ fault s', (applyStep name t (.buffer ref) true).outcome s = (.error fault, s') ∧
      s'.bytes ref = bs) ∨
    (∃ out gs s', t.effect bs s.generators = .ok (out, gs) ∧ t.reuses bs.length = true ∧
      (applyStep name t (.buffer ref) true).outcome s = (.ok ref, s') ∧
      s'.Holds (.buffer ref) out ∧ s'.generators = gs) ∨
    (∃ next s', t.reuses bs.length = false ∧
      (applyStep name t (.buffer ref) true).outcome s = (.ok next, s') ∧
      next ≠ ref ∧ s'.Holds (.buffer ref) bs) := by
  have hlive := hv.isLive ref rfl
  rw [outcome_applyStep ht hv.asBytes?]
  cases heff : t.effect bs s.generators with
  | error fault =>
    rw [Transform.result_of_error heff]
    exact Or.inl ⟨fault, s, rfl, hv.bytes_eq⟩
  | ok after =>
    obtain ⟨out, gs⟩ := after
    rw [Transform.result_of_ok heff]
    rcases Bool.eq_false_or_eq_true (t.reuses bs.length) with hreuses | hreuses
    · rw [Transform.deliver_buffer ref hreuses]
      have hbytes := s.bytes_overwrite out hlive
      cases hdesc : t.describe (Store.bytes { s.overwrite ref out with generators := gs }) with
      | error fault =>
        -- the buffer has been written before the description fails, but by its own bytes
        rw [effect_of_describe_error ht hreuses hdesc] at heff
        cases heff
        simp only [hdesc]
        exact Or.inl ⟨fault, _, rfl, hbytes⟩
      | ok description =>
        simp only [hdesc]
        refine Or.inr (Or.inl ⟨out, gs, _, rfl, hreuses, rfl, ?_, rfl⟩)
        exact Store.holds_buffer (by simpa using hlive) hbytes
    · rw [Transform.deliver_of_not_reuses (by simp [hreuses])]
      have hbytes := s.bytes_add_of_lt out hlive
      rw [hv.bytes_eq] at hbytes
      cases hdesc : t.describe (Store.bytes { (s.add out).2 with generators := gs }) with
      | error fault =>
        simp only [hdesc]
        exact Or.inl ⟨fault, _, rfl, hbytes⟩
      | ok description =>
        simp only [hdesc]
        refine Or.inr (Or.inr ⟨_, _, hreuses, rfl, Nat.ne_of_gt hlive, ?_⟩)
        exact Store.holds_buffer (by simp; omega) hbytes

end

/-! ## Runs -/

section

variable {built : List (Value × Transform)} {s : Store} {ref : Nat} {bs : Bytes}

/-- A buffer other than the present one is left alone by all further steps. -/
theorem applyFrom_other (h : ∀ e ∈ built, e.2.IsOwn) (hv : s.Holds (.buffer ref) bs) {next : Nat}
    (hne : next ≠ ref) : ((applyFrom next built).outcome s).2.bytes ref = bs := by
  have hframed := framed_applyFrom (fun e he => Transform.isFramed_of_isOwn (h e he)) next s
  rw [hframed.keeps.bytes_eq ref (hv.isLive ref rfl), hv.bytes_eq]
  rintro ⟨-, ⟨⟩⟩
  exact hne rfl

/-- The first `k` steps of a run in place succeed and reuse the buffer, with `out` as their output,
and the step after them does not. That output stays in the buffer. -/
structure Kept (built : List (Value × Transform)) (s : Store) (ref : Nat) (bs : Bytes) (k : Nat)
    (out : Bytes) : Prop where
  succeeds : ((applyFrom ref (built.take k)).outcome s).1 = .ok ref
  reuses : ∀ i < k, EffectReuses bs s.generators (built.map (·.2)) i
  stops : ∀ n > k, n ≤ built.length →
    (∃ r, ((applyFrom ref (built.take n)).outcome s).1 = .ok r) →
      ¬ EffectReuses bs s.generators (built.map (·.2)) k
  output : (effects 0 bs s.generators ((built.map (·.2)).take k)).1 = .ok out
  bytes_eq : ∀ n ≥ k, ((applyFrom ref (built.take n)).outcome s).2.bytes ref = out
  result_iff : ∀ result, ((applyFrom ref built).outcome s).1 = .ok result →
    (result = ref ↔ ∀ i < built.length, EffectReuses bs s.generators (built.map (·.2)) i)

theorem kept_nil (hv : s.Holds (.buffer ref) bs) : Kept [] s ref bs 0 bs where
  succeeds := rfl
  reuses := by simp
  stops := by
    intro n hn hle
    exact absurd hle (Nat.not_le.2 hn)
  output := rfl
  bytes_eq := by
    intro n _
    rw [List.take_nil]
    exact hv.bytes_eq
  result_iff := by simp [applyFrom, eq_comm]

variable {name : Value} {t : Transform} {s' : Store} {rest : List (Value × Transform)}

theorem outcome_applyFrom_of_error {fault : Fault}
    (hrun : (applyStep name t (.buffer ref) true).outcome s = (.error fault, s')) :
    (applyFrom ref ((name, t) :: rest)).outcome s = (.error fault, s') := by
  rw [applyFrom, Action.outcome_bind, hrun]

theorem outcome_applyFrom_of_ok {next : Nat}
    (hrun : (applyStep name t (.buffer ref) true).outcome s = (.ok next, s')) :
    (applyFrom ref ((name, t) :: rest)).outcome s = (applyFrom next rest).outcome s' := by
  rw [applyFrom, Action.outcome_bind, hrun]

/-- A first step that is refused ends the run. -/
theorem kept_of_refused (hv : s.Holds (.buffer ref) bs) {fault : Fault}
    (hrun : (applyStep name t (.buffer ref) true).outcome s = (.error fault, s'))
    (hbytes : s'.bytes ref = bs) :
    Kept ((name, t) :: rest) s ref bs 0 bs where
  succeeds := rfl
  reuses := by simp
  stops := by
    rintro (_ | n) hn - ⟨r, hok⟩
    · exact absurd hn (Nat.lt_irrefl 0)
    · rw [List.take_succ_cons, outcome_applyFrom_of_error hrun] at hok
      cases hok
  output := rfl
  bytes_eq := by
    intro n _
    cases n with
    | zero => exact hv.bytes_eq
    | succ n => rw [List.take_succ_cons, outcome_applyFrom_of_error hrun, hbytes]
  result_iff := by
    rw [outcome_applyFrom_of_error hrun]
    simp

/-- After a first step that makes a new buffer the given one is left alone. -/
theorem kept_of_made (hrest : ∀ e ∈ rest, e.2.IsOwn) (hv : s.Holds (.buffer ref) bs) {next : Nat}
    (hreuses : t.reuses bs.length = false)
    (hrun : (applyStep name t (.buffer ref) true).outcome s = (.ok next, s')) (hne : next ≠ ref)
    (hheld : s'.Holds (.buffer ref) bs) : Kept ((name, t) :: rest) s ref bs 0 bs where
  succeeds := rfl
  reuses := by simp
  stops := by
    intro _ _ _ _
    rw [List.map_cons, effectReuses_zero, hreuses]
    exact Bool.false_ne_true
  output := rfl
  bytes_eq := by
    intro n _
    cases n with
    | zero => exact hv.bytes_eq
    | succ n =>
      rw [List.take_succ_cons, outcome_applyFrom_of_ok hrun]
      exact applyFrom_other (fun e he => hrest e (List.mem_of_mem_take he)) hheld hne
  result_iff := by
    intro result hok
    rw [outcome_applyFrom_of_ok hrun] at hok
    constructor
    · -- the result is the new buffer or one made later, and the given one is neither
      rintro rfl
      have hframed :=
        framed_applyFrom (fun e he => Transform.isFramed_of_isOwn (hrest e he)) next s'
      rcases hframed.result _ hok with ⟨-, ⟨⟩⟩ | hfresh
      · exact absurd rfl hne
      · exact absurd (hheld.isLive _ rfl) (Nat.not_lt.2 hfresh.1)
    · intro hall
      have hzero := hall 0 (by simp)
      rw [List.map_cons, effectReuses_zero, hreuses] at hzero
      exact absurd hzero Bool.false_ne_true

/-- A first step that reuses the buffer comes before those that do so after it. -/
theorem kept_succ {out out' : Bytes} {k : Nat}
    (heff : t.effect bs s.generators = .ok (out, s'.generators))
    (hreuses : t.reuses bs.length = true)
    (hrun : (applyStep name t (.buffer ref) true).outcome s = (.ok ref, s'))
    (hkept : Kept rest s' ref out k out') :
    Kept ((name, t) :: rest) s ref bs (k + 1) out' := by
  have hsucc : ∀ i, EffectReuses bs s.generators (t :: rest.map (·.2)) (i + 1) ↔
      EffectReuses out s'.generators (rest.map (·.2)) i :=
    effectReuses_succ heff
  refine ⟨?_, ?_, ?_, ?_, ?_, ?_⟩
  · rw [List.take_succ_cons, outcome_applyFrom_of_ok hrun]
    exact hkept.succeeds
  · intro i hi
    cases i with
    | zero => exact effectReuses_zero.2 hreuses
    | succ i => exact (hsucc i).2 (hkept.reuses i (by omega))
  · intro n hn hle hok hreused
    obtain ⟨m, rfl⟩ : ∃ m, n = m + 1 := ⟨n - 1, by omega⟩
    rw [List.take_succ_cons, outcome_applyFrom_of_ok hrun] at hok
    rw [List.length_cons] at hle
    exact hkept.stops m (by omega) (by omega) hok ((hsucc k).1 hreused)
  · rw [List.map_cons, List.take_succ_cons]
    exact (effects_cons_ok_iff heff).2 hkept.output
  · intro n hn
    obtain ⟨m, rfl⟩ : ∃ m, n = m + 1 := ⟨n - 1, by omega⟩
    rw [List.take_succ_cons, outcome_applyFrom_of_ok hrun]
    exact hkept.bytes_eq m (by omega)
  · intro result hok
    rw [outcome_applyFrom_of_ok hrun] at hok
    rw [hkept.result_iff result hok]
    constructor
    · intro hall i hi
      cases i with
      | zero => exact effectReuses_zero.2 hreuses
      | succ i => exact (hsucc i).2 (hall i (by simpa using hi))
    · intro hall i hi
      exact (hsucc i).1 (hall (i + 1) (by simpa using hi))

/-- **A run in place keeps the output of its first reusing steps in the buffer it starts from.** -/
theorem exists_kept (h : ∀ e ∈ built, e.2.IsOwn) (hv : s.Holds (.buffer ref) bs) :
    ∃ k out, Kept built s ref bs k out := by
  induction built generalizing s bs with
  | nil => exact ⟨0, bs, kept_nil hv⟩
  | cons e rest ih =>
    obtain ⟨name, t⟩ := e
    obtain ⟨ht, hrest⟩ := List.forall_mem_cons.1 h
    rcases outcome_applyStep_cases ht hv name with
      ⟨fault, s', hrun, hbytes⟩ | ⟨out, gs, s', heff, hreuses, hrun, hheld, rfl⟩ |
      ⟨next, s', hreuses, hrun, hne, hheld⟩
    · exact ⟨0, bs, kept_of_refused hv hrun hbytes⟩
    · obtain ⟨k, out', hkept⟩ := ih hrest hheld
      exact ⟨k + 1, out', kept_succ heff hreuses hrun hkept⟩
    · exact ⟨0, bs, kept_of_made hrest hv hreuses hrun hne hheld⟩

end

/-! ## Pipelines -/

theorem applyAll_buffer (ref : Nat) (built : List (Value × Transform)) :
    applyAll (.buffer ref) true built = applyFrom ref built := by
  cases built <;> rfl

/-- The steps are applied in place, the first to the buffer with this number, and none fails. -/
def Succeeds (ref : Nat) (built : List (Value × Transform)) (s : Store) : Prop :=
  ∃ r, ((applyAll (.buffer ref) true built).outcome s).1 = .ok r

/-- **What a pipeline in place leaves in the buffer it is given**, whether it succeeds or fails: the
output of the longest prefix of steps that were applied and reused the buffer; no step after them
writes it. The buffer is the result just if every step reuses it, and any other result is a new
buffer. -/
theorem run_inPlace {s s₁ s' : Store} {ref : Nat} {transforms : Value} {read : List Step}
    {built : List (Value × Transform)} {result : Except Fault Nat}
    (hlive : ref < s.buffers.length) (hsteps : steps s.bytes transforms = .ok read)
    (hbuilt : (build .builtin read).outcome s = (.ok built, s₁))
    (hrun : (run .builtin (.buffer ref) transforms true).outcome s = (result, s')) :
    ∃ k out,
      IsGreatest {n | n ≤ built.length ∧ Succeeds ref (built.take n) s₁ ∧
        ∀ i < n, ReusesAt (s.bytes ref) (built.map (·.2)) s₁ i} k ∧
      (plain 0 (s.bytes ref) ((built.map (·.2)).take k) s₁).1 = .ok out ∧
      s'.bytes ref = out ∧
      (∀ n ≥ k,
        ((applyAll (.buffer ref) true (built.take n)).outcome s₁).2.bytes ref = out) ∧
      ∀ r, result = .ok r →
        (r = ref ↔ ∀ i < built.length, ReusesAt (s.bytes ref) (built.map (·.2)) s₁ i) ∧
          (r ≠ ref → s.IsFresh s' r) := by
  have hown := isOwn_of_build Registry.isOwn_builtin hbuilt
  have hts := isOwn_map hown
  have hext : s.Extends s₁ := extends_of_build hbuilt
  have hheld : s₁.Holds (.buffer ref) (s.bytes ref) :=
    Store.holds_buffer (by rwa [hext.buffers]) (by rw [hext.bytes])
  have hfrom : (applyFrom ref built).outcome s₁ = (result, s') := by
    rw [← hrun, outcome_run rfl hsteps hbuilt, applyAll_buffer]
  have hreuses : ∀ i, ReusesAt (s.bytes ref) (built.map (·.2)) s₁ i ↔
      EffectReuses (s.bytes ref) s₁.generators (built.map (·.2)) i :=
    reusesAt_iff hts s₁
  obtain ⟨k, out, hkept⟩ := exists_kept hown hheld
  -- there are no more reusing steps than steps
  have hlen : k ≤ built.length := by
    refine Nat.not_lt.1 fun hlt => ?_
    obtain ⟨_, _, -, hget, -⟩ := hkept.reuses built.length (by omega)
    simp at hget
  refine ⟨k, out, ⟨⟨hlen, ?_, ?_⟩, ?_⟩, ?_, ?_, ?_, ?_⟩
  · rw [Succeeds, applyAll_buffer]
    exact ⟨ref, hkept.succeeds⟩
  · intro i hi
    exact (hreuses i).2 (hkept.reuses i hi)
  · rintro n ⟨hn, hok, hall⟩
    rw [Succeeds, applyAll_buffer] at hok
    refine Nat.not_lt.1 fun hlt => ?_
    exact hkept.stops n hlt hn hok ((hreuses k).1 (hall k hlt))
  · rw [plain_take hts]
    exact hkept.output
  · have hend := hkept.bytes_eq built.length hlen
    rwa [List.take_length, hfrom] at hend
  · intro n hn
    rw [applyAll_buffer]
    exact hkept.bytes_eq n hn
  · rintro r rfl
    have hiff := hkept.result_iff r (by rw [hfrom])
    refine ⟨by simpa only [hreuses] using hiff, fun hne => ?_⟩
    have hframed := framed_run (Registry.isFramed_of_isOwn Registry.isOwn_builtin) (.buffer ref)
      transforms true s
    rw [hrun] at hframed
    rcases hframed.result r rfl with ⟨-, ⟨⟩⟩ | hfresh
    · exact absurd rfl hne
    · exact hfresh

/-- The sample fails in its last step. Its buffer has the output of the first three steps: the
fourth makes a new buffer, and the fifth reuses that. -/
theorem run_inPlace_sample :
    (∃ k out,
      IsGreatest {n | n ≤ 6 ∧ Succeeds 0 (sampleTransforms.take n) sampleStore ∧
        ∀ i < n, ReusesAt [1, 2, 3] (sampleTransforms.map (·.2)) sampleStore i} k ∧
      (plain 0 [1, 2, 3] ((sampleTransforms.map (·.2)).take k) sampleStore).1 = .ok out ∧
      ((run .builtin (.buffer 0) sampleEntries true).outcome sampleStore).2.bytes 0 = out) ∧
    ((run .builtin (.buffer 0) sampleEntries true).outcome sampleStore).2.bytes 0
      = [252, 253, 254] ∧
    (plain 0 [1, 2, 3] ((sampleTransforms.map (·.2)).take 3) sampleStore).1
      = .ok [252, 253, 254] := by
  refine ⟨?_, ?_, rfl⟩
  · have hlive : 0 < sampleStore.buffers.length := by decide
    obtain ⟨k, out, hk, hout, hbytes, -⟩ :=
      run_inPlace hlive steps_sample build_sample (Prod.eta _).symm
    exact ⟨k, out, hk, hout, hbytes⟩
  · rw [outcome_run rfl steps_sample build_sample]
    decide +kernel

end Octets.Pipeline
