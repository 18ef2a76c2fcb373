import Octets.Proofs.Transform.Effect

/-!
# What is seen of a transform

A transform of this library holds no buffer, nor anything else that can be written. So what it says
of itself never changes, and what it does depends on the bytes it is given. Only a shuffle depends
on its generator besides.

* `describe_congr`, `unhashable?_of_mem_fields` — the description and the fields.
* `effect_congr` — the effect on bytes.
* `observed_apply_congr` — an application as a whole: equal bytes in values of one kind get the same
  answer in any two stores.
-/

namespace Octets

open Octets.Random (Generator)

namespace Transform

/-- What is seen of an application to a value: the bytes of the result and whether the value itself
is the result, or the fault; and the bytes that the value has then. -/
def observed (v : Value) (x : Except Fault Nat × Store) :
    Except Fault (Bytes × Bool) × Option Bytes :=
  (x.1.map fun ref => (x.2.bytes ref, v.isBuffer ref), v.asBytes? x.2.bytes)

/-! ## Descriptions and fields -/

section

variable {t : Transform}

theorem describe_congr (ht : t.IsOwn) (contents contents' : Nat → Bytes) :
    t.describe contents = t.describe contents' := by
  cases t with
  | sort comparator => cases comparator <;> rfl
  | added p values => simp [IsOwn, kind?] at ht
  | _ => rfl

/-- No field holds a buffer, a list, a dictionary or a set. -/
theorem unhashable?_of_mem_fields (ht : t.IsOwn) : ∀ e ∈ t.fields, e.2.unhashable? = none := by
  cases t with
  | sort comparator => cases comparator <;> simp [fields, Value.unhashable?]
  | added p values => simp [IsOwn, kind?] at ht
  | _ => simp [fields, Value.unhashable?]

/-- **Only a shuffle asks for the generators.** -/
theorem effect_congr (ht : t.kind? ≠ some .shuffle) (bs : Bytes) (gs gs' : List Generator) :
    (t.effect bs gs).map (·.1) = (t.effect bs gs').map (·.1) := by
  cases t with
  | bitwise second mode =>
    simp only [effect]
    split <;> rfl
  | shift count direction =>
    simp only [effect]
    split
    · rfl
    · split <;> rfl
  | sort comparator =>
    cases comparator with
    | none => rfl
    | some c =>
      simp only [effect]
      split <;> rfl
  | shuffle kind generator => exact absurd rfl ht
  | copy offset length =>
    simp only [effect]
    split <;> rfl
  | resize size =>
    simp only [effect]
    repeat' split
    all_goals rfl
  | _ => rfl

end

/-! ## Applications -/

section

variable {t : Transform} {s s' : Store} {v v' : Value} {inPlace : Bool} {bs out : Bytes}
  {gs gs' : List Generator}

theorem observed_refused (hv : s.Holds v bs) (fault : Fault) :
    observed v (.error fault, s) = (.error fault, some bs) := by
  rw [observed, hv.asBytes?]
  rfl

/-- A new buffer is not the value, which keeps its bytes. -/
theorem observed_add (hv : s.Holds v bs) (out : Bytes) (gs : List Generator) :
    observed v (.ok s.buffers.length, { (s.add out).2 with generators := gs })
      = (.ok (out, false), some bs) := by
  have hbytes : ({ (s.add out).2 with generators := gs } : Store).bytes s.buffers.length = out :=
    s.bytes_add_length out
  rcases cases_of_asBytes? hv.asBytes? with ⟨ref, rfl, hheld⟩ | rfl | rfl
  · have hlive := hv.isLive ref rfl
    have hkept : ({ (s.add out).2 with generators := gs } : Store).bytes ref = bs :=
      (s.bytes_add_of_lt out hlive).trans hheld
    have hother : Value.isBuffer s.buffers.length (.buffer ref) = false := by
      simp [Value.isBuffer, Nat.ne_of_lt hlive]
    simp only [observed, Except.map, hbytes, hother, Value.asBytes?, hkept]
  · simp only [observed, Except.map, hbytes, Value.isBuffer, Value.asBytes?]
  · simp only [observed, Except.map, hbytes, Value.isBuffer, Value.asBytes?]

/-- A buffer that is overwritten is the result. -/
theorem observed_overwrite {ref : Nat} (hlive : ref < s.buffers.length) (out : Bytes)
    (gs : List Generator) :
    observed (.buffer ref) (.ok ref, { s.overwrite ref out with generators := gs })
      = (.ok (out, true), some out) := by
  have hbytes : ({ s.overwrite ref out with generators := gs } : Store).bytes ref = out :=
    s.bytes_overwrite out hlive
  simp only [observed, Except.map, hbytes, Value.isBuffer, Value.asBytes?, beq_self_eq_true]

/-- Byte strings of one kind are two buffers, or one value. -/
theorem cases_of_kind_eq (hv : s.Holds v bs) (hv' : s'.Holds v' bs) (hkind : v.kind = v'.kind) :
    (∃ ref ref', v = .buffer ref ∧ v' = .buffer ref') ∨ v = v' ∧ ∀ ref, v ≠ .buffer ref := by
  rcases cases_of_asBytes? hv.asBytes? with ⟨ref, rfl, -⟩ | rfl | rfl <;>
    rcases cases_of_asBytes? hv'.asBytes? with ⟨ref', rfl, -⟩ | rfl | rfl <;>
    simp_all [Value.kind]

/-- Bytes are delivered alike to values of one kind. -/
theorem observed_deliver_congr (hv : s.Holds v bs) (hv' : s'.Holds v' bs)
    (hkind : v.kind = v'.kind) : observed v (t.deliver v inPlace bs.length out gs s)
      = observed v' (t.deliver v' inPlace bs.length out gs' s') := by
  cases hplace : inPlace && t.reuses bs.length with
  | false =>
    rw [deliver_of_not_reuses hplace, deliver_of_not_reuses hplace, observed_add hv,
      observed_add hv']
  | true =>
    obtain ⟨rfl, hreuses⟩ := Bool.and_eq_true_iff.1 hplace
    rcases cases_of_kind_eq hv hv' hkind with ⟨ref, ref', rfl, rfl⟩ | ⟨rfl, hfixed⟩
    · rw [deliver_buffer ref hreuses, deliver_buffer ref' hreuses,
        observed_overwrite (hv.isLive ref rfl), observed_overwrite (hv'.isLive ref' rfl)]
    · rw [deliver_of_not_buffer hfixed hreuses, deliver_of_not_buffer hfixed hreuses]
      split
      · rw [observed_refused hv, observed_refused hv']
      · rw [observed_add hv, observed_add hv']

/-- **Equal bytes in values of one kind get the same answer**, whatever else is in the two
stores. -/
theorem observed_apply_congr (ht : t.IsOwn) (hshuffle : t.kind? ≠ some .shuffle) (hv : s.Holds v bs)
    (hv' : s'.Holds v' bs) (hkind : v.kind = v'.kind) (inPlace : Bool) :
    observed v ((t.apply v inPlace).outcome s) = observed v' ((t.apply v' inPlace).outcome s') := by
  rw [outcome_apply ht hv.asBytes?, outcome_apply ht hv'.asBytes?]
  have heffect := effect_congr hshuffle bs s.generators s'.generators
  cases heff : t.effect bs s.generators with
  | error fault =>
    cases heff' : t.effect bs s'.generators with
    | error fault' =>
      rw [heff, heff'] at heffect
      cases heffect
      rw [result_of_error heff, result_of_error heff', observed_refused hv, observed_refused hv']
    | ok made' => simp [heff, heff', Except.map] at heffect
  | ok made =>
    cases heff' : t.effect bs s'.generators with
    | error fault' => simp [heff, heff', Except.map] at heffect
    | ok made' =>
      obtain ⟨out, gs⟩ := made
      obtain ⟨out', gs'⟩ := made'
      rw [heff, heff'] at heffect
      cases heffect
      rw [result_of_ok heff, result_of_ok heff', observed_deliver_congr hv hv' hkind]

end

end Transform

end Octets
