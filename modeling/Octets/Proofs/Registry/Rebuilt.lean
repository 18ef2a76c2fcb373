import Mathlib
import Octets.Proofs.Registry.Soundness
import Octets.Proofs.Transform.Made
import Octets.Proofs.Transform.Observed

/-!
# Transforms that are built again

The fields of a transform are parameters: under every name of its kind the same transform is built
from them. Whatever the parameters of the first time looked like, the fields have the values that
were read from them, and these are read as they are.

* `HasFields` — a dictionary gives each field its value, under the name of the field.
* `outcome_ofParams_of_hasFields` — then it makes the transform, whatever else it has: no other key
  for the same parameter is preferred to the name of the field.
* `outcome_build_fields` — so no defaults of a registered name count against the fields.
* `build_fields` — all of it for what has been made.
-/

namespace Octets

namespace Family

/-- A key that is accepted is a text, or stands for one. -/
theorem isWritable_of_accepts {family : Family} {key : Value} (h : family.Accepts key) :
    key.isWritable = true := by
  obtain ⟨a, -, htext⟩ := h
  cases key with
  | text s => rfl
  | mode m => rfl
  | direction d => rfl
  | _ => cases htext

end Family

/-! ## Fields as parameters -/

namespace Transform

/-- Each field of the transform has its value in the dictionary, under its own name. -/
def HasFields (t : Transform) (params : Dict) : Prop :=
  ∀ key v, (.text key, v) ∈ t.fields → Dict.get? params key = some v

variable {t : Transform} {k : Kind} {params : Dict}

theorem isDistinct_fields (ht : t.IsOwn) : t.fields.IsDistinct := by
  cases t with
  | added p values => simp [IsOwn, kind?] at ht
  | _ => simp [fields, Dict.IsDistinct, Value.same, Value.asText?]

/-- Fields that are set over a dictionary have their values there. -/
theorem hasFields_putAll (ht : t.IsOwn) (d : Dict) : t.HasFields (Dict.putAll d t.fields) := by
  intro key v hmem
  rw [Dict.get?_putAll (isDistinct_fields ht), Dict.get?_of_mem (isDistinct_fields ht) hmem]
  rfl

theorem HasFields.get_eq (h : t.HasFields params) (key : String) (v : Value)
    (hmem : (.text key, v) ∈ t.fields) : Dict.get params key = v :=
  Dict.get_of_get? (h key v hmem)

/-- The names of the fields are accepted as keys. -/
theorem accepts_of_mem_fields (ht : t.kind? = some k) :
    ∀ e ∈ t.fields, (Family.builtin k).Accepts e.1 := by
  cases t with
  | added p values => cases ht
  | _ =>
    cases ht
    simp [fields, Family.Accepts, Family.accepted, Kind.accepted, Value.asText?]

/-- A transform equals itself. -/
theorem same_self (ht : t.IsOwn) : t.same t = true := by
  cases t with
  | sort comparator =>
    cases comparator <;> simp [same, comparable, fields, Value.same, Value.sameEntries,
      Value.asText?]
  | added p values => simp [IsOwn, kind?] at ht
  | _ =>
    simp [same, comparable, fields, Value.same, Value.sameEntries, Value.sameWhole, Value.asText?]

end Transform

namespace Family

variable {t : Transform} {k : Kind} {params : Dict}

open Transform

/-- **A dictionary with the fields of a transform makes this transform.** -/
theorem outcome_ofParams_of_hasFields (ht : t.kind? = some k)
    (haccepted : ∀ e ∈ params, (builtin k).Accepts e.1) (h : t.HasFields params) (s : Store) :
    ((builtin k).ofParams params).outcome s = (.ok t, s) := by
  have hcheck : checkKeys s.bytes (builtin k) params = .ok () :=
    checkKeys_of_accepted s.bytes (fun e he => isWritable_of_accepts (haccepted e he)) haccepted
  simp only [ofParams, Action.outcome_bind, Action.outcome_reading, hcheck]
  cases t with
  | bitwise second mode =>
    cases ht
    have hsecond := h.get_eq "second" (.bytes second) (by simp [fields])
    have hmode := h.get_eq "mode" (.mode mode) (by simp [fields])
    simp only [Action.outcome_reading, hsecond, hmode]
    cases mode <;> rfl
  | negate =>
    cases ht
    rfl
  | shift count direction =>
    cases ht
    have hcount := h "shift_count" (.int count) (by simp [fields])
    have hdirection := h.get_eq "direction" (.direction direction) (by simp [fields])
    simp only [Action.outcome_reading, hcount, hdirection, Option.getD_some]
    cases direction <;> rfl
  | concat second =>
    cases ht
    have hsecond := h.get_eq "second" (.bytes second) (by simp [fields])
    simp only [Action.outcome_reading, hsecond]
    rfl
  | reverse =>
    cases ht
    rfl
  | sort comparator =>
    cases ht
    have hcomparator :=
      h "comparator" ((comparator.map Value.comparator).getD .null) (by simp [fields])
    simp only [Action.outcome_reading, hcomparator]
    cases comparator <;> rfl
  | shuffle kind ref =>
    cases ht
    have hrng := h.get_eq "rng" (.generator kind ref) (by simp [fields])
    simp only [shuffleOf, hrng]
    rfl
  | copy offset length =>
    cases ht
    have hoffset := h "offset" (.int offset) (by simp [fields])
    have hlength := h.get_eq "length" (.int length) (by simp [fields])
    simp only [Action.outcome_reading, hoffset, hlength, Option.getD_some]
    rfl
  | resize size =>
    cases ht
    have hsize := h "new_size" (.int size) (by simp [fields])
    simp only [Action.outcome_reading, hsize, Option.getD_some]
    rfl
  | added p values => cases ht

end Family

/-! ## Building again -/

namespace Registry

open Transform (IsMade observed)

variable {r : Registry} {entry : Registration} {k : Kind} {t : Transform}

/-- What a registry of the kinds of this library builds has been made by one of them. -/
theorem exists_isMade_of_build (hr : r.IsOwn) {name params : Value} {s s' : Store}
    (h : (r.build name params).outcome s = (.ok t, s')) : ∃ k, IsMade k t := by
  obtain ⟨k, merged, s₁, hmade⟩ := exists_ofParams_of_build hr h
  have hvalue : ((Family.builtin k).ofValue (.dict merged)).outcome s₁ = (.ok t, s') := hmade
  exact ⟨k, .ofValue hvalue⟩

/-- **No defaults count against the fields**, if their keys are accepted at all. -/
theorem outcome_build_fields (hfind : r.find? entry.name = some entry)
    (hfamily : entry.family = .builtin k)
    (hdefaults : ∀ e ∈ entry.defaults, entry.family.Accepts e.1) (ht : t.kind? = some k)
    (s : Store) : (r.build (.text entry.name) (.dict t.fields)).outcome s = (.ok t, s) := by
  rw [hfamily] at hdefaults
  have haccepted := Family.accepts_putAll hdefaults (Transform.accepts_of_mem_fields ht)
  have hfields := Transform.hasFields_putAll (Transform.isOwn_of_kind? ht) entry.defaults
  rw [outcome_build, hfind]
  simp only [hfamily]
  exact Family.outcome_ofParams_of_hasFields ht haccepted hfields s

/-- **A transform is built again from its own fields.** Take a transform that a kind of this library
has made, of whatever arguments or parameters. Under every name of the kind the fields of the
transform build this transform and nothing else, from any store, which they leave. It is so under
any other name that is registered for the kind with keys as defaults that it accepts, and for the
constructor. The transform equals itself, and if it is no shuffle, it gives the same answer to equal
bytes wherever it is applied. -/
theorem build_fields (hmade : IsMade k t) :
    (∀ entry ∈ builtin, entry.family = .builtin k → ∀ s,
      (builtin.build (.text entry.name) (.dict t.fields)).outcome s = (.ok t, s)) ∧
    (∀ (r : Registry) (entry : Registration), r.find? entry.name = some entry →
      entry.family = .builtin k → (∀ e ∈ entry.defaults, entry.family.Accepts e.1) → ∀ s,
        (r.build (.text entry.name) (.dict t.fields)).outcome s = (.ok t, s)) ∧
    (∀ s, ((Family.builtin k).ofArguments (t.fields.map (·.2))).outcome s = (.ok t, s)) ∧
    t.same t = true ∧
    (k ≠ .shuffle → ∀ (s s' : Store) (v v' : Value) (bs : Bytes) (inPlace : Bool), s.Holds v bs →
      s'.Holds v' bs → v.kind = v'.kind →
        observed v ((t.apply v inPlace).outcome s)
          = observed v' ((t.apply v' inPlace).outcome s')) := by
  have ht := hmade.kind?
  refine ⟨?_, ?_, Transform.outcome_ofArguments_fields ht, Transform.same_self hmade.isOwn, ?_⟩
  · intro entry hmem hfamily
    obtain ⟨k', hentry⟩ := exists_isSound hmem
    refine outcome_build_fields (find?_of_mem hmem) hfamily ?_ ht
    rw [hentry.family]
    exact hentry.accepted
  · intro r entry hfind hfamily hdefaults
    exact outcome_build_fields hfind hfamily hdefaults ht
  · intro hshuffle s s' v v' bs inPlace hv hv' hkind
    have hdraws : t.kind? ≠ some .shuffle := by
      rw [ht]
      simpa using hshuffle
    exact Transform.observed_apply_congr hmade.isOwn hdraws hv hv' hkind inPlace

/-- Bytes in hexadecimal digits are to be combined by "exclusive or". The fields say so as well
under a name that has another mode as its default. -/
theorem build_fields_xor :
    (builtin.build (.text "xor") (.dict [(.text "second", .text "0x0F f0")])).outcome .empty
        = (.ok (.bitwise [0x0f, 0xf0] .xor), .empty) ∧
      (builtin.build (.text "and") (.dict (Transform.bitwise [0x0f, 0xf0] .xor).fields)).outcome
        .empty = (.ok (.bitwise [0x0f, 0xf0] .xor), .empty) := by
  have hbuilt :
    (builtin.build (.text "xor") (.dict [(.text "second", .text "0x0F f0")])).outcome .empty
      = (.ok (.bitwise [0x0f, 0xf0] .xor), .empty) := by
    cbv
  obtain ⟨k, hmade⟩ := exists_isMade_of_build isOwn_builtin hbuilt
  cases hmade.kind?
  obtain ⟨hagain, -⟩ := build_fields hmade
  refine ⟨hbuilt, hagain ⟨"and", .builtin .bitwise, [(.text "mode", .text "and")]⟩ ?_ rfl .empty⟩
  simp [builtin, Mode.word]

end Registry

end Octets
