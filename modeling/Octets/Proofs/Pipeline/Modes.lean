import Octets.Proofs.Pipeline.Fold

/-!
# Working in place or on a copy

A run in place that succeeds has described all of its transforms, so all of their integers can be
written. Then `run_eq_plain` says of the run in place and of one on a copy that both give what the
plain fold gives.

* `isWritable_of_applyAll` — what is applied has been described, by induction on the steps.
* `outcome_run_copy` — if a run in place succeeds, so does the run on a copy, with the same bytes.
-/

namespace Octets

theorem Decimal.isWritable_of_integerText {n : Int} {text : String} (h : integerText n = .ok text) :
    isWritable n = true := by
  by_cases hw : isWritable n = true
  · exact hw
  · rw [integerText, Decimal.write, if_neg hw] at h
    cases h

/-- What can be described has no integers that cannot be written. -/
theorem Transform.isWritable_of_describe {t : Transform} {contents : Nat → Bytes} {text : String}
    (h : t.describe contents = .ok text) : t.IsWritable := by
  cases t with
  | shift count direction =>
    obtain ⟨count', hcount, -⟩ := ok_of_bind h
    exact Decimal.isWritable_of_integerText hcount
  | copy offset length =>
    obtain ⟨length', hlength, h⟩ := ok_of_bind h
    obtain ⟨offset', hoffset, -⟩ := ok_of_bind h
    exact ⟨Decimal.isWritable_of_integerText hoffset, Decimal.isWritable_of_integerText hlength⟩
  | resize size =>
    obtain ⟨size', hsize, -⟩ := ok_of_bind h
    exact Decimal.isWritable_of_integerText hsize
  | _ => trivial

namespace Pipeline

variable {s s' : Store} {built : List (Value × Transform)} {ref : Nat}

theorem isWritable_of_applyStep {name v : Value} {t : Transform} {inPlace : Bool}
    (h : (applyStep name t v inPlace).outcome s = (.ok ref, s')) : t.IsWritable := by
  obtain ⟨_, _, -, h⟩ := Action.ok_of_outcome_bind h
  obtain ⟨_, _, -, h⟩ := Action.ok_of_outcome_bind h
  obtain ⟨_, _, -, h⟩ := Action.ok_of_outcome_bind h
  obtain ⟨_, _, hdescribe, -⟩ := Action.ok_of_outcome_bind h
  exact Transform.isWritable_of_describe (Action.ok_of_outcome_reading hdescribe).1

theorem isWritable_of_applyFrom {first : Nat}
    (h : (applyFrom first built).outcome s = (.ok ref, s')) : ∀ e ∈ built, e.2.IsWritable := by
  induction built generalizing first s with
  | nil => simp
  | cons e rest ih =>
    obtain ⟨next, s₁, hstep, h⟩ := Action.ok_of_outcome_bind h
    exact List.forall_mem_cons.2 ⟨isWritable_of_applyStep hstep, ih h⟩

/-- **What has been applied has been described.** -/
theorem isWritable_of_applyAll {data : Value} {inPlace : Bool}
    (h : (applyAll data inPlace built).outcome s = (.ok ref, s')) :
    ∀ e ∈ built, e.2.IsWritable := by
  cases built with
  | nil => simp
  | cons e rest =>
    obtain ⟨next, s₁, hstep, h⟩ := Action.ok_of_outcome_bind h
    exact List.forall_mem_cons.2 ⟨isWritable_of_applyStep hstep, isWritable_of_applyFrom h⟩

/-- A run that succeeds has read its steps, built them, and applied what is built. -/
theorem exists_built_of_run {r : Registry} {data transforms : Value} {inPlace : Bool}
    (h : (run r data transforms inPlace).outcome s = (.ok ref, s')) :
    ∃ read built s₁, steps s.bytes transforms = .ok read ∧
      (build r read).outcome s = (.ok built, s₁) ∧
      (applyAll data inPlace built).outcome s₁ = (.ok ref, s') := by
  unfold run at h
  split at h
  · cases h
  · obtain ⟨read, s₀, hread, hrest⟩ := Action.ok_of_outcome_bind h
    obtain ⟨hsteps, rfl⟩ := Action.ok_of_outcome_reading hread
    obtain ⟨built, s₁, hbuilt, happly⟩ := Action.ok_of_outcome_bind hrest
    exact ⟨read, built, s₁, hsteps, hbuilt, happly⟩

/-- **If a run in place on a buffer succeeds, so does the run on a copy**, of the buffer or of any
other value with its bytes, and with the same bytes. -/
theorem outcome_run_copy {buffer : Nat} {v transforms : Value} {bs : Bytes}
    (hbuffer : s.Holds (.buffer buffer) bs) (hv : s.Holds v bs)
    (h : (run .builtin (.buffer buffer) transforms true).outcome s = (.ok ref, s')) :
    ∃ copy s'', (run .builtin v transforms false).outcome s = (.ok copy, s'') ∧
      s''.bytes copy = s'.bytes ref := by
  obtain ⟨read, built, s₁, hsteps, hbuilt, happly⟩ := exists_built_of_run h
  have hw := isWritable_of_applyAll happly
  have hplace := run_eq_plain hbuffer hsteps hbuilt hw true fun _ => ⟨buffer, rfl⟩
  have hcopy := run_eq_plain hv hsteps hbuilt hw false (by simp)
  rw [← hplace, h] at hcopy
  rcases hrun : (run .builtin v transforms false).outcome s with ⟨fault | copy, s''⟩
  · rw [hrun] at hcopy
    cases hcopy
  · rw [hrun] at hcopy
    exact ⟨copy, s'', rfl, Except.ok.inj (Prod.mk.inj hcopy).1⟩

end Pipeline

end Octets
