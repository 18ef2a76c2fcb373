import Octets.Proofs.Pipeline.Fold
import Octets.Proofs.Pipeline.Oblivious
import Octets.Proofs.Transform.Observed

/-!
# What a pipeline records

A pipeline enters one record for each step into the journal, and none for a step that fails or for
one behind it. `Pipeline.stage` is what the first steps give, when they are a pipeline of their own,
and `Pipeline.IsRecord` is what a record says of the stages before and behind its step. A run that
stops midway needs no notion of its own: every stage behind a step that fails is that fault.

* `Transform.result_cases` — a transform returns the object that it is given if it may reuse it, and
  else a new one.
* `stage_succ` — a stage is that of the step before it, and one step more.
* `applyStep_cases` — a step fails and records nothing, or succeeds and adds its record.
* `recorded_of_fails`, `recorded_concat` — behind records, a step that fails adds none and one that
  succeeds adds its own.
* `exists_recorded` — the records of the first steps. The induction is on their number; it keeps
  that each stage up to the last record holds bytes.
* `run_records` — the records of a run, whether it succeeds or fails.
-/

namespace Octets

/-! ## Objects -/

namespace Transform

variable {s : Store} {v : Value} {bs : Bytes}

/-- Bytes are delivered into the buffer that is given just if that is asked and the transform reuses
it. Else they are delivered into a new buffer, or not at all. -/
theorem deliver_cases (hv : s.Holds v bs) (t : Transform) (inPlace : Bool) (out : Bytes)
    (gs : List Random.Generator) :
    (∃ fault, t.deliver v inPlace bs.length out gs s = (.error fault, s)) ∨
      ∃ ref s', t.deliver v inPlace bs.length out gs s = (.ok ref, s') ∧
        s'.Holds (.buffer ref) out ∧ s'.journal = s.journal ∧
        (v = .buffer ref ↔ (inPlace = true ∧ ∃ given, v = .buffer given) ∧
          t.reuses bs.length = true) := by
  have hnew : ({ (s.add out).2 with generators := gs } : Store).Holds
      (.buffer s.buffers.length) out :=
    s.holds_added out gs
  have hother : v ≠ .buffer s.buffers.length := fun heq => Nat.lt_irrefl _ (hv.isLive _ heq)
  rcases Bool.eq_false_or_eq_true (inPlace && t.reuses bs.length) with hreuses | hreuses
  · obtain ⟨rfl, hr⟩ := Bool.and_eq_true_iff.1 hreuses
    by_cases hbuffer : ∃ ref, v = .buffer ref
    · obtain ⟨ref, rfl⟩ := hbuffer
      refine Or.inr ⟨ref, _, deliver_buffer ref hr, ?_, rfl, ?_⟩
      · exact Store.holds_overwritten (hv.isLive ref rfl) out gs
      · simp [hr]
    · rw [deliver_of_not_buffer (fun ref heq => hbuffer ⟨ref, heq⟩) hr]
      split
      · exact Or.inl ⟨_, rfl⟩
      · refine Or.inr ⟨_, _, rfl, hnew, rfl, iff_of_false hother ?_⟩
        rintro ⟨⟨-, hgiven⟩, -⟩
        exact hbuffer hgiven
  · refine Or.inr ⟨_, _, deliver_of_not_reuses hreuses, hnew, rfl, iff_of_false hother ?_⟩
    rintro ⟨⟨rfl, -⟩, hr⟩
    rw [hr] at hreuses
    cases hreuses

/-- The same of a transform that may refuse the bytes. -/
theorem result_cases (hv : s.Holds v bs) (t : Transform) (inPlace : Bool) :
    (∃ fault, t.result v inPlace bs s = (.error fault, s)) ∨
      ∃ ref s' out, t.result v inPlace bs s = (.ok ref, s') ∧ s'.Holds (.buffer ref) out ∧
        s'.journal = s.journal ∧
        (v = .buffer ref ↔ (inPlace = true ∧ ∃ given, v = .buffer given) ∧
          t.reuses bs.length = true) := by
  cases heff : t.effect bs s.generators with
  | error fault => exact Or.inl ⟨fault, result_of_error heff⟩
  | ok made =>
    obtain ⟨out, gs⟩ := made
    rw [result_of_ok heff]
    exact (deliver_cases hv t inPlace out gs).imp_right fun ⟨ref, s', hmade⟩ =>
      ⟨ref, s', out, hmade⟩

end Transform

theorem Value.isBuffer_iff {v : Value} {ref : Nat} : v.isBuffer ref = true ↔ v = .buffer ref := by
  cases v <;> simp [isBuffer]

namespace Pipeline

/-! ## Stages -/

/-- What the first `n` steps give, and the store that they leave: the data at first, and then a
buffer. -/
def stage (data : Value) (inPlace : Bool) (built : List (Value × Transform)) (s : Store) :
    Nat → Except Fault Value × Store
  | 0 => (.ok data, s)
  | n + 1 =>
    let (result, s') := (applyAll data inPlace (built.take (n + 1))).outcome s
    (result.map .buffer, s')

/-- Is the step asked to work in place? Only the first one may not be. -/
def inPlaceAt (inPlace : Bool) (i : Nat) : Bool := inPlace || decide (i ≠ 0)

/-- What is recorded of a step that is given the value `v` in the store `s` and returns the buffer
`ref`, which is in the store `s'`. The step works in place if `inPlace` holds. -/
structure IsRecord (r : Applied) (name : Value) (t : Transform) (inPlace : Bool) (v : Value)
    (s : Store) (ref : Nat) (s' : Store) : Prop where
  applied : ((t.apply v inPlace).outcome s).1 = .ok ref
  name : r.name = name.plain
  description : t.describe s.bytes = .ok r.description
  before : v.length s.bytes = .ok r.before
  after : r.after = (s'.bytes ref).length
  /-- The buffer is reused if it is the very object that was given. -/
  reused_iff : r.reused = true ↔ v = .buffer ref
  /-- That is the case just if there is one to work on in place, and the transform is of those that
  do so. -/
  reuses_iff : r.reused = true ↔
    (inPlace = true ∧ ∃ given, v = .buffer given) ∧ t.reuses r.before = true

section

variable {data v : Value} {inPlace : Bool} {built rest : List (Value × Transform)} {name : Value}
  {t : Transform} {s s' : Store} {bs : Bytes} {n : Nat}

theorem applyFrom_append (ref : Nat) (built rest : List (Value × Transform)) :
    applyFrom ref (built ++ rest) = applyFrom ref built >>= fun ref => applyFrom ref rest := by
  induction built generalizing ref with
  | nil => simp [applyFrom]
  | cons e built ih =>
    obtain ⟨name, t⟩ := e
    simp only [List.cons_append, applyFrom, ih, bind_assoc]

theorem applyAll_append (h : built ≠ []) :
    applyAll data inPlace (built ++ rest)
      = applyAll data inPlace built >>= fun ref => applyFrom ref rest := by
  cases built with
  | nil => exact absurd rfl h
  | cons e built =>
    obtain ⟨name, t⟩ := e
    simp only [List.cons_append, applyAll, applyFrom_append, bind_assoc]

/-- **A stage is that of the step before it, and one step more.** -/
theorem stage_succ (h : built[n]? = some (name, t)) :
    stage data inPlace built s (n + 1) =
      match stage data inPlace built s n with
      | (.error fault, s') => (.error fault, s')
      | (.ok v, s') =>
        let (result, s'') := (applyStep name t v (inPlaceAt inPlace n)).outcome s'
        (result.map .buffer, s'') := by
  have htake : built.take (n + 1) = built.take n ++ [(name, t)] := by
    rw [List.take_add_one, h]
    rfl
  have hlast : ∀ ref, applyFrom ref [(name, t)] = applyStep name t (.buffer ref) true :=
    fun ref => by
    simp [applyFrom]
  cases n with
  | zero =>
    have hfirst : applyAll data inPlace [(name, t)] = applyStep name t data inPlace := by
      simp [applyAll, applyFrom]
    simp only [stage, htake, List.take_zero, List.nil_append, hfirst, inPlaceAt]
    simp
  | succ n =>
    have hne : built.take (n + 1) ≠ [] := by
      obtain ⟨hlt, -⟩ := List.getElem?_eq_some_iff.1 h
      exact List.ne_nil_of_length_pos (by rw [List.length_take]; omega)
    simp only [stage, htake, applyAll_append hne, hlast, Action.outcome_bind]
    rcases (applyAll data inPlace (built.take (n + 1))).outcome s with ⟨fault | ref, s'⟩
    · rfl
    · simp [Except.map, inPlaceAt]

/-- Behind the first step there is a buffer. -/
theorem exists_buffer_of_stage (h : stage data inPlace built s (n + 1) = (.ok v, s')) :
    ∃ ref, v = .buffer ref := by
  rcases hrun : (applyAll data inPlace (built.take (n + 1))).outcome s with ⟨fault | ref, s₁⟩
  · rw [stage, hrun] at h
    cases h
  · rw [stage, hrun] at h
    cases h
    exact ⟨ref, rfl⟩

/-- The last stage is the run. -/
theorem stage_length (h : built ≠ []) :
    stage data inPlace built s built.length =
      (((applyAll data inPlace built).outcome s).1.map .buffer,
        ((applyAll data inPlace built).outcome s).2) := by
  obtain ⟨n, hn⟩ : ∃ n, built.length = n + 1 :=
    Nat.exists_eq_succ_of_ne_zero (mt List.length_eq_zero_iff.1 h)
  rw [hn, stage, List.take_of_length_le (Nat.le_of_eq hn)]

/-! ## One step -/

/-- The step fails on the value `v` in the store `s`, and leaves the store `s'`. Its transform
refuses the bytes; or it has been applied, and has a number in it that is too long to be written in
its description. -/
def StepFails (t : Transform) (v : Value) (inPlace : Bool) (s : Store) (fault : Fault)
    (s' : Store) : Prop :=
  (t.apply v inPlace).outcome s = (.error fault, s') ∨
    ∃ ref, (t.apply v inPlace).outcome s = (.ok ref, s') ∧ ¬ t.IsWritable ∧
      t.describe s'.bytes = .error fault

/-- **A step fails and records nothing, or succeeds and adds its record.** -/
theorem applyStep_cases (ht : t.IsOwn) (hname : name.asText?.isSome) (hv : s.Holds v bs)
    (inPlace : Bool) :
    (∃ fault s', (applyStep name t v inPlace).outcome s = (.error fault, s') ∧
      s'.journal = s.journal ∧ StepFails t v inPlace s fault s') ∨
    ∃ ref s' out r, (applyStep name t v inPlace).outcome s = (.ok ref, s') ∧
      s'.Holds (.buffer ref) out ∧
      s'.journal = s.journal ++ [r] ∧ IsRecord r name t inPlace v s ref s' := by
  have happly : (t.apply v inPlace).outcome s = t.result v inPlace bs s :=
    Transform.outcome_apply ht hv.asBytes?
  rw [outcome_applyStep ht hv.asBytes?]
  rcases Transform.result_cases hv t inPlace with
    ⟨fault, hresult⟩ | ⟨ref, s', out, hresult, hheld, hjournal, hsame⟩
  · exact Or.inl ⟨fault, s, by rw [hresult], rfl, Or.inl (happly.trans hresult)⟩
  rw [hresult] at happly ⊢
  cases hdescribe : t.describe s'.bytes with
  | error fault =>
    have hlong : ¬ t.IsWritable := fun hw => by
      obtain ⟨description, hdescribed⟩ := Transform.exists_describe ht hw s'.bytes
      rw [hdescribe] at hdescribed
      cases hdescribed
    simp only [hdescribe]
    exact Or.inl ⟨fault, s', rfl, hjournal, Or.inr ⟨ref, happly, hlong, hdescribe⟩⟩
  | ok description =>
    have hdescribed : t.describe s.bytes = .ok description := by
      rw [Transform.describe_congr ht s.bytes s'.bytes, hdescribe]
    simp only [hdescribe]
    refine Or.inr ⟨ref, _, out, _, rfl, ⟨hheld.asBytes?, hheld.isLive⟩,
      congrArg (· ++ [_]) hjournal, ?_⟩
    exact ⟨by rw [happly], Value.display_congr hname _ _, hdescribed,
      Value.length_of_asBytes? hv.asBytes?, rfl, Value.isBuffer_iff, Value.isBuffer_iff.trans hsame⟩

end

/-! ## The first steps -/

section

variable {data : Value} {inPlace : Bool} {built : List (Value × Transform)} {s : Store} {bs : Bytes}
  {n : Nat} {records : List Applied}

/-- The record is that of the step with this index: it was given what there was at its stage, and
has returned what there is at the next one. -/
def IsRecordAt (data : Value) (inPlace : Bool) (built : List (Value × Transform))
    (s : Store) (i : Nat) (r : Applied) : Prop :=
  ∃ name t v s₁ ref s₂, built[i]? = some (name, t) ∧ stage data inPlace built s i = (.ok v, s₁) ∧
    stage data inPlace built s (i + 1) = (.ok (.buffer ref), s₂) ∧
    IsRecord r name t (inPlaceAt inPlace i) v s₁ ref s₂

/-- The step with this index fails on what there is at its stage, and leaves the store `s₂`. -/
def FailsWith (data : Value) (inPlace : Bool) (built : List (Value × Transform))
    (s : Store) (i : Nat) (fault : Fault) (s₂ : Store) : Prop :=
  ∃ name t v s₁, built[i]? = some (name, t) ∧ stage data inPlace built s i = (.ok v, s₁) ∧
    StepFails t v (inPlaceAt inPlace i) s₁ fault s₂

/-- These are the records of the first `n` steps: one for each step up to the first that fails. -/
structure Recorded (data : Value) (inPlace : Bool) (built : List (Value × Transform))
    (s : Store) (n : Nat) (records : List Applied) : Prop where
  length_le : records.length ≤ n
  journal : (stage data inPlace built s n).2.journal = s.journal ++ records
  held : ∀ m ≤ records.length, ∃ v s' bs, stage data inPlace built s m = (.ok v, s') ∧ s'.Holds v bs
  record : ∀ i r, records[i]? = some r → IsRecordAt data inPlace built s i r
  failed : records.length < n → ∃ fault s₂, FailsWith data inPlace built s records.length fault s₂ ∧
    ∀ m, records.length < m → m ≤ n → stage data inPlace built s m = (.error fault, s₂)

theorem recorded_zero (hdata : s.Holds data bs) : Recorded data inPlace built s 0 [] where
  length_le := Nat.le_refl 0
  journal := (List.append_nil _).symm
  held m hm := by
    obtain rfl := Nat.le_zero.1 hm
    exact ⟨data, s, bs, rfl, hdata⟩
  record _ _ h := by cases h
  failed h := absurd h (Nat.lt_irrefl 0)

/-- Behind a step that fails nothing more is recorded. -/
theorem recorded_of_failed {name : Value} {t : Transform} (hget : built[n]? = some (name, t))
    (h : Recorded data inPlace built s n records) (hlt : records.length < n) :
    Recorded data inPlace built s (n + 1) records := by
  obtain ⟨fault, s₂, hfails, hall⟩ := h.failed hlt
  have hstage := hall n hlt (Nat.le_refl n)
  have hnext : stage data inPlace built s (n + 1) = (.error fault, s₂) := by
    rw [stage_succ hget, hstage]
  refine ⟨Nat.le_succ_of_le h.length_le, ?_, h.held, h.record, fun _ => ⟨fault, s₂, hfails, ?_⟩⟩
  · have hjournal := h.journal
    rw [hstage] at hjournal
    rw [hnext, ← hjournal]
  · intro m hm hle
    rcases Nat.lt_or_eq_of_le hle with hless | rfl
    · exact hall m hm (Nat.le_of_lt_succ hless)
    · exact hnext

/-- A step that fails is not recorded. -/
theorem recorded_of_fails {fault : Fault} {s₂ : Store} (h : Recorded data inPlace built s n records)
    (hlen : records.length = n) (hnext : stage data inPlace built s (n + 1) = (.error fault, s₂))
    (hjournal : s₂.journal = s.journal ++ records)
    (hfails : FailsWith data inPlace built s n fault s₂) :
    Recorded data inPlace built s (n + 1) records := by
  subst hlen
  refine ⟨Nat.le_succ _, by rw [hnext, hjournal], h.held, h.record, fun _ =>
    ⟨fault, s₂, hfails, ?_⟩⟩
  intro m hm hle
  obtain rfl : m = records.length + 1 := by omega
  exact hnext

/-- A step that succeeds is recorded behind those before it. -/
theorem recorded_concat {v : Value} {s₂ : Store} {out : Bytes} {r : Applied}
    (h : Recorded data inPlace built s n records) (hlen : records.length = n)
    (hnext : stage data inPlace built s (n + 1) = (.ok v, s₂)) (hheld : s₂.Holds v out)
    (hjournal : s₂.journal = s.journal ++ records ++ [r])
    (hrecord : IsRecordAt data inPlace built s n r) :
    Recorded data inPlace built s (n + 1) (records ++ [r]) := by
  subst hlen
  have hlength : (records ++ [r]).length = records.length + 1 := by simp
  refine ⟨Nat.le_of_eq hlength, by rw [hnext, hjournal, List.append_assoc], ?_, ?_, ?_⟩
  · intro m hm
    rw [hlength] at hm
    rcases Nat.lt_or_eq_of_le hm with hless | rfl
    · exact h.held m (Nat.le_of_lt_succ hless)
    · exact ⟨v, s₂, out, hnext, hheld⟩
  · intro i r' hr'
    rcases Nat.lt_or_ge i records.length with hlt | hge
    · rw [List.getElem?_append_left hlt] at hr'
      exact h.record i r' hr'
    · obtain ⟨hbound, -⟩ := List.getElem?_eq_some_iff.1 hr'
      obtain rfl : i = records.length := by omega
      rw [List.getElem?_concat_length] at hr'
      obtain rfl := Option.some.inj hr'
      exact hrecord
  · intro hlt
    omega

/-- One more step is recorded if it succeeds. -/
theorem exists_recorded_succ (hown : ∀ e ∈ built, e.2.IsOwn)
    (hnames : ∀ e ∈ built, e.1.asText?.isSome) {name : Value} {t : Transform}
    (hget : built[n]? = some (name, t)) (h : Recorded data inPlace built s n records)
    (hlen : records.length = n) : ∃ more, Recorded data inPlace built s (n + 1) more := by
  have hmem := List.mem_of_getElem? hget
  obtain ⟨v, s₁, bs, hstage, hv⟩ := h.held n (Nat.le_of_eq hlen.symm)
  have hjournal : s₁.journal = s.journal ++ records := by
    rw [← h.journal, hstage]
  have hnext : stage data inPlace built s (n + 1) = _ := stage_succ hget
  rw [hstage] at hnext
  rcases applyStep_cases (hown _ hmem) (hnames _ hmem) hv (inPlaceAt inPlace n) with
    ⟨fault, s₂, hstep, hkept, hcause⟩ | ⟨ref, s₂, out, r, hstep, hheld, hadded, hrecord⟩
  · simp only [hstep, Except.map] at hnext
    exact ⟨records, recorded_of_fails h hlen hnext (hkept.trans hjournal)
      ⟨name, t, v, s₁, hget, hstage, hcause⟩⟩
  · simp only [hstep, Except.map] at hnext
    exact ⟨records ++ [r], recorded_concat h hlen hnext hheld (by rw [hadded, hjournal])
      ⟨name, t, v, s₁, ref, s₂, hget, hstage, hnext, hrecord⟩⟩

/-- **The records of the first steps.** -/
theorem exists_recorded (hown : ∀ e ∈ built, e.2.IsOwn) (hnames : ∀ e ∈ built, e.1.asText?.isSome)
    (hdata : s.Holds data bs) (hn : n ≤ built.length) :
    ∃ records, Recorded data inPlace built s n records := by
  induction n with
  | zero => exact ⟨[], recorded_zero hdata⟩
  | succ n ih =>
    obtain ⟨records, hrecorded⟩ := ih (Nat.le_of_succ_le hn)
    obtain ⟨⟨name, t⟩, hget⟩ : ∃ e, built[n]? = some e := ⟨_, List.getElem?_eq_getElem hn⟩
    rcases Nat.lt_or_eq_of_le hrecorded.length_le with hlt | hlen
    · exact ⟨records, recorded_of_failed hget hrecorded hlt⟩
    · exact exists_recorded_succ hown hnames hget hrecorded hlen

end

/-! ## Runs -/

/-- The records are those of a run that applies the transforms to the data, with the bytes `bs`, in
the store `s`, and ends with the result in the store `s'`. -/
structure IsTrace (data : Value) (inPlace : Bool) (built : List (Value × Transform)) (s : Store)
    (bs : Bytes) (result : Except Fault Nat) (s' : Store) (records : List Applied) : Prop where
  /-- There is a record for each step with which the pipeline up to it succeeds, and for no
  other. -/
  le_length_iff : ∀ n ≤ built.length, n ≤ records.length ↔ ∃ v,
    (stage data inPlace built s n).1 = .ok v
  record : ∀ i r, records[i]? = some r → IsRecordAt data inPlace built s i r
  first : ∀ r, records[0]? = some r → r.before = bs.length
  chained : ∀ i r r', records[i]? = some r → records[i + 1]? = some r' → r'.before = r.after
  /-- A buffer is given to the first step only if the data is one, and to all others. -/
  reused_iff : ∀ i r, records[i]? = some r → ∃ e, built[i]? = some e ∧
    (r.reused = true ↔
      (i = 0 → inPlace = true ∧ ∃ ref, data = .buffer ref) ∧ e.2.reuses r.before = true)
  last : ∀ ref, result = .ok ref → records.length = built.length ∧
    ∀ r, records.getLast? = some r → r.after = (s'.bytes ref).length
  failed : ∀ fault, result = .error fault → FailsWith data inPlace built s records.length fault s'

section

variable {data : Value} {inPlace : Bool} {built : List (Value × Transform)} {s s' : Store}
  {bs : Bytes}
  {records : List Applied} {result : Except Fault Nat} {n : Nat}

theorem Recorded.le_length_iff (h : Recorded data inPlace built s built.length records)
    (hn : n ≤ built.length) :
    n ≤ records.length ↔ ∃ v, (stage data inPlace built s n).1 = .ok v := by
  constructor
  · intro hle
    obtain ⟨v, s', bs, hstage, -⟩ := h.held n hle
    exact ⟨v, by rw [hstage]⟩
  · rintro ⟨v, hv⟩
    refine Nat.not_lt.1 fun hlt => ?_
    obtain ⟨fault, s₂, -, hall⟩ := h.failed (Nat.lt_of_lt_of_le hlt hn)
    rw [hall n hlt hn] at hv
    cases hv

/-- What is given to a step that has a record has the length that is recorded. -/
theorem IsRecordAt.before_eq {i : Nat} {r : Applied} (h : IsRecordAt data inPlace built s i r)
    {v : Value} {s₁ : Store} (hstage : stage data inPlace built s i = (.ok v, s₁))
    (hv : v.asBytes? s₁.bytes = some bs) : r.before = bs.length := by
  obtain ⟨_, _, w, s₂, _, _, -, hgiven, -, hrecord⟩ := h
  rw [hgiven, Prod.mk.injEq, Except.ok.injEq] at hstage
  obtain ⟨rfl, rfl⟩ := hstage
  have hbefore := hrecord.before
  rw [Value.length_of_asBytes? hv] at hbefore
  exact (Except.ok.inj hbefore).symm

/-- What is returned by a step that has a record has the length that is recorded. -/
theorem IsRecordAt.after_eq {i : Nat} {r : Applied} (h : IsRecordAt data inPlace built s i r)
    {ref : Nat} {s₁ : Store}
    (hstage : stage data inPlace built s (i + 1) = (.ok (.buffer ref), s₁)) :
    r.after = (s₁.bytes ref).length := by
  obtain ⟨_, _, _, _, other, s₂, -, -, hreturned, hrecord⟩ := h
  rw [hreturned, Prod.mk.injEq, Except.ok.injEq, Value.buffer.injEq] at hstage
  obtain ⟨rfl, rfl⟩ := hstage
  exact hrecord.after

theorem IsRecordAt.chained {i : Nat} {r r' : Applied} (h : IsRecordAt data inPlace built s i r)
    (h' : IsRecordAt data inPlace built s (i + 1) r') : r'.before = r.after := by
  obtain ⟨_, _, _, _, ref, s₂, -, -, hreturned, hrecord⟩ := h
  rw [hrecord.after]
  exact h'.before_eq hreturned rfl

theorem IsRecordAt.reused_iff {i : Nat} {r : Applied} (h : IsRecordAt data inPlace built s i r) :
    ∃ e, built[i]? = some e ∧
      (r.reused = true ↔
        (i = 0 → inPlace = true ∧ ∃ ref, data = .buffer ref) ∧ e.2.reuses r.before = true) := by
  obtain ⟨name, t, v, s₁, _, _, hget, hgiven, -, hrecord⟩ := h
  refine ⟨(name, t), hget, hrecord.reuses_iff.trans (and_congr_left' ?_)⟩
  cases i with
  | zero =>
    cases hgiven
    simp [inPlaceAt]
  | succ i =>
    simp [inPlaceAt, exists_buffer_of_stage hgiven]

/-- Without transforms nothing is recorded, and the data or a copy of it is the result. -/
theorem outcome_applyAll_nil (hdata : s.Holds data bs) (inPlace : Bool) :
    ∃ ref s', (applyAll data inPlace []).outcome s = (.ok ref, s') ∧ s'.journal = s.journal := by
  simp only [applyAll]
  split
  · exact ⟨_, s, rfl, rfl⟩
  · exact ⟨_, _, Action.outcome_toBuffer hdata.asBytes?, rfl⟩

theorem isTrace_nil (hdata : s.Holds data bs)
    (hrun : (applyAll data inPlace []).outcome s = (result, s')) :
    s'.journal = s.journal ∧ IsTrace data inPlace [] s bs result s' [] := by
  obtain ⟨ref, s₁, hnil, hjournal⟩ := outcome_applyAll_nil hdata inPlace
  rw [hnil, Prod.mk.injEq] at hrun
  obtain ⟨rfl, rfl⟩ := hrun
  refine ⟨hjournal, fun n hn => ?_, ?_, ?_, ?_, ?_, ?_, ?_⟩
  · obtain rfl := Nat.le_zero.1 hn
    exact iff_of_true (Nat.le_refl 0) ⟨data, rfl⟩
  all_goals simp

/-- **The records of applying transforms.** -/
theorem exists_isTrace (hown : ∀ e ∈ built, e.2.IsOwn) (hnames : ∀ e ∈ built, e.1.asText?.isSome)
    (hdata : s.Holds data bs) (hrun : (applyAll data inPlace built).outcome s = (result, s')) :
    ∃ records, s'.journal = s.journal ++ records ∧
      IsTrace data inPlace built s bs result s' records := by
  rcases eq_or_ne built [] with rfl | hne
  · obtain ⟨hjournal, htrace⟩ := isTrace_nil hdata hrun
    exact ⟨[], by rw [hjournal, List.append_nil], htrace⟩
  obtain ⟨records, hrecorded⟩ : ∃ records, Recorded data inPlace built s built.length records :=
    exists_recorded hown hnames hdata (Nat.le_refl _)
  have hlast : stage data inPlace built s built.length = (result.map .buffer, s') := by
    rw [stage_length hne, hrun]
  refine ⟨records, by rw [← hrecorded.journal, hlast], ?_⟩
  exact {
    le_length_iff := fun n hn => hrecorded.le_length_iff hn
    record := hrecorded.record
    first := fun r hr => (hrecorded.record 0 r hr).before_eq rfl hdata.asBytes?
    chained := fun i r r' hr hr' =>
      (hrecorded.record i r hr).chained (hrecorded.record (i + 1) r' hr')
    reused_iff := fun i r hr => (hrecorded.record i r hr).reused_iff
    last := fun ref hok => by
      subst hok
      have hlen : records.length = built.length :=
        Nat.le_antisymm hrecorded.length_le
          ((hrecorded.le_length_iff (Nat.le_refl _)).2 ⟨.buffer ref, by rw [hlast]; rfl⟩)
      refine ⟨hlen, fun r hr => ?_⟩
      rw [List.getLast?_eq_getElem?] at hr
      have hpos : 0 < built.length := List.length_pos_iff.2 hne
      refine (hrecorded.record _ r hr).after_eq ?_
      rw [hlen, Nat.sub_add_cancel hpos, hlast]
      rfl
    failed := fun fault hfault => by
      subst hfault
      have hlt : records.length < built.length := by
        refine Nat.not_le.1 fun hle => ?_
        obtain ⟨v, hv⟩ := (hrecorded.le_length_iff (Nat.le_refl _)).1 hle
        rw [hlast] at hv
        cases hv
      obtain ⟨fault', s₂, hfails, hall⟩ := hrecorded.failed hlt
      have hsame := hall _ hlt (Nat.le_refl _)
      rw [hlast, Prod.mk.injEq] at hsame
      obtain ⟨hfault, rfl⟩ := hsame
      cases hfault
      exact hfails }

end

/-- **The records of a run.** There is one for each step that succeeds and none for a step that
fails or for one behind it, and each is of its own step. The first has the length of the data before
its step, each other one the length that the record before it has behind its step, and the last the
length of the result. -/
theorem run_records {r : Registry} (hr : r.IsOwn) {s s₁ s' : Store} {data transforms : Value}
    {inPlace : Bool} {bs : Bytes} {read : List Step} {built : List (Value × Transform)}
    {result : Except Fault Nat} (hdata : s.Holds data bs)
    (hsteps : steps s.bytes transforms = .ok read)
    (hbuilt : (build r read).outcome s = (.ok built, s₁))
    (hrun : (run r data transforms inPlace).outcome s = (result, s')) :
    ∃ records, s'.journal = s.journal ++ records ∧ built.map (·.1) = read.map (·.name) ∧
      IsTrace data inPlace built s₁ bs result s' records := by
  have hext : s.Extends s₁ := extends_of_build hbuilt
  rw [outcome_run (Value.isNull_of_asBytes? hdata.asBytes?) hsteps hbuilt] at hrun
  obtain ⟨records, hjournal, htrace⟩ :=
    exists_isTrace (isOwn_of_build hr hbuilt) (isSome_asText?_of_build hbuilt)
      (hext.holds hdata) hrun
  exact ⟨records, by rw [hjournal, hext.journal], map_fst_of_build hbuilt, htrace⟩

/-- The sample worked on in place. It enters five records and fails in the sixth step. -/
theorem run_records_sample :
    (∃ records, ((run .builtin (.buffer 0) sampleEntries true).outcome sampleStore).2.journal
        = sampleStore.journal ++ records ∧
      sampleTransforms.map (·.1) = sampleSteps.map (·.name) ∧
      IsTrace (.buffer 0) true sampleTransforms sampleStore [1, 2, 3]
        ((run .builtin (.buffer 0) sampleEntries true).outcome sampleStore).1
        ((run .builtin (.buffer 0) sampleEntries true).outcome sampleStore).2 records) ∧
    ((run .builtin (.buffer 0) sampleEntries true).outcome sampleStore).2.journal.map
        (fun r => (r.before, r.after, r.reused))
      = [(3, 3, true), (3, 3, true), (3, 3, true), (3, 4, false), (4, 4, true)] := by
  refine ⟨?_, ?_⟩
  · exact run_records Registry.isOwn_builtin
      (Store.holds_buffer (by decide) rfl) steps_sample build_sample
      (Prod.eta _).symm
  · rw [outcome_run rfl steps_sample build_sample]
    decide +kernel

end Pipeline

end Octets
