import Octets.Proofs.Transform.Frame
import Octets.Proofs.Transform.Made
import Octets.Transform.Loose

/-!
# When a transform refuses

`Transform.Refuses` says of every kind which byte strings it refuses and with which fault. Besides,
a number may be too large for the machine (`Transform.Fits`).

* `Comparator.sort_eq_error_iff` — a sort fails just if the comparator refuses one of the pairs that
  it is asked about.
* `refuses_bitwise` and its kin — what a kind refuses that has tests of its own, in their order.
* `result_eq_error_iff` — the faults of a transform are those of `Refuses`.
* `outcome_guardedBitwise`, `outcome_guardedShift` — the code for fields that anyone may have
  written comes to the same on the fields of a transform that has been made, so its tests of the
  mode and of the direction never fail there.
* `apply_refuses_iff` — all of this for what the constructors make, and that a refusal leaves the
  store.
-/

namespace Octets

open Octets.Random (Generator)

/-! ## Refused comparisons -/

namespace Comparator

/-- The pairs that the comparator is asked about when `x` is inserted, up to the first it
refuses. -/
def askedToInsert (c : Comparator) (x : Int) : List Int → List (Int × Int)
  | [] => []
  | y :: rest =>
    (y, x) ::
      match c.compare y x with
      | .ok order => if order < 0 then askedToInsert c x rest else []
      | .error _ => []

/-- The pairs that the comparator is asked about in a sort, up to the first it refuses. -/
def asked (c : Comparator) : List Int → List (Int × Int)
  | [] => []
  | x :: rest =>
    c.asked rest ++
      match c.sort rest with
      | .ok sorted => c.askedToInsert x sorted
      | .error _ => []

variable {c : Comparator} {message : String}

theorem insert_eq_error_iff (x : Int) (values : List Int) :
    c.insert x values = .error message ↔
      ∃ p ∈ c.askedToInsert x values, c.compare p.1 p.2 = .error message := by
  induction values with
  | nil => simp [insert, askedToInsert]
  | cons y rest ih =>
    cases hyx : c.compare y x with
    | error refusal => simp [insert, askedToInsert, hyx, bind, Except.bind]
    | ok order =>
      by_cases hless : order < 0
      · have hbind : c.insert x (y :: rest) = .error message ↔
            c.insert x rest = .error message := by
          cases hrest : c.insert x rest <;>
            simp [insert, hyx, hless, hrest, bind, Except.bind, pure, Except.pure]
        rw [hbind, ih]
        simp [askedToInsert, hyx, hless]
      · simp [insert, askedToInsert, hyx, hless, bind, Except.bind, pure, Except.pure]

/-- **A sort fails just if the comparator refuses one of the pairs that it is asked about.** -/
theorem sort_eq_error_iff (values : List Int) :
    c.sort values = .error message ↔
      ∃ p ∈ c.asked values, c.compare p.1 p.2 = .error message := by
  induction values with
  | nil => simp [sort, asked]
  | cons x rest ih =>
    cases hrest : c.sort rest with
    | error refusal =>
      have hbind : c.sort (x :: rest) = c.sort rest := by
        simp [sort, hrest, bind, Except.bind]
      rw [hbind, ih]
      simp [asked, hrest]
    | ok sorted =>
      have hbind : c.sort (x :: rest) = c.insert x sorted := by
        simp [sort, hrest, bind, Except.bind]
      have hnone : ∀ p ∈ c.asked rest, c.compare p.1 p.2 ≠ .error message := by
        intro p hp hrefused
        have herror := ih.2 ⟨p, hp, hrefused⟩
        rw [hrest] at herror
        cases herror
      rw [hbind, insert_eq_error_iff]
      simp only [asked, hrest, List.mem_append, or_and_right, exists_or]
      constructor
      · exact Or.inr
      · rintro (⟨p, hp, hrefused⟩ | h)
        · exact absurd hrefused (hnone p hp)
        · exact h

end Comparator

/-! ## Refused byte strings -/

/-- The value should be overwritten in place, but it is no buffer. -/
def Value.IsFixed (v : Value) (inPlace : Bool) : Prop := inPlace = true ∧ ∀ ref, v ≠ .buffer ref

namespace Transform

/-- The range from `offset` on does not lie inside a byte string of this length. -/
def IsOutside (offset length : Int) (size : Nat) : Prop :=
  offset < 0 ∨ length < 0 ∨ size < offset + length

/-- The transform refuses the byte string `bs`, which is the value `v`, with this fault. Nothing is
refused by a transform that appends. -/
def Refuses (t : Transform) (v : Value) (inPlace : Bool) (bs : Bytes) (fault : Fault) : Prop :=
  match t with
  | bitwise second _ =>
    bs.length ≠ second.length ∧ fault = .lengthMismatch second.length bs.length "bitwise" ∨
      bs.length = second.length ∧ v.IsFixed inPlace ∧
        fault = .unusable (.notMutable v.kind) (some "bitwise")
  | negate => v.IsFixed inPlace ∧ fault = .unusable (.notMutable v.kind) (some "not")
  | shift .. => bs = [] ∧ fault = .unusable .emptyNumber (some "shift")
  | concat _ => False
  | reverse => v.IsFixed inPlace ∧ fault = .unusable (.notMutable v.kind) (some "reverse")
  | sort none => v.IsFixed inPlace ∧ fault = .unusable (.notMutable v.kind) (some "sort")
  | sort (some c) =>
    ∃ message, (∃ p ∈ c.asked (bs.map Bytes.signed), c.compare p.1 p.2 = .error message) ∧
      fault = .badValue (.refused message)
  | shuffle .. => v.IsFixed inPlace ∧ fault = .unusable (.notMutable v.kind) (some "shuffle")
  | copy offset length =>
    IsOutside offset length bs.length ∧
      fault = .outOfRange offset (offset + length) bs.length "copy"
  | resize size => size < 0 ∧ fault = .unusable .negativeSize (some "resize")
  | added .. => False

/-- No number that comes up is too large: the shifted number has digits that can be counted, the
ends of a range that is refused can be written, and the zeros in front can be counted. -/
def Fits (t : Transform) (bs : Bytes) : Prop :=
  match t with
  | shift count direction => bs.toInt = 0 ∨ direction.toLeft count < maxShift
  | copy offset length =>
    IsOutside offset length bs.length →
      Decimal.isWritable offset = true ∧ Decimal.isWritable (offset + length) = true
  | resize size => size - bs.length ≤ Value.maxLength
  | _ => True

section

variable {t : Transform} {s : Store} {v : Value} {inPlace : Bool} {bs out : Bytes}
  {gs : List Generator} {fault : Fault}

/-- What has an effect is refused only if it should be overwritten and is no buffer. -/
theorem deliver_eq_error_iff (length : Nat) :
    (t.deliver v inPlace length out gs s).1 = .error fault ↔
      (t.reuses length = true ∧ t.kind? ≠ some .resize) ∧ v.IsFixed inPlace ∧
        fault = .unusable (.notMutable v.kind) (some t.name) := by
  cases hplace : inPlace && t.reuses length with
  | false =>
    rw [deliver_of_not_reuses hplace]
    simp only [Value.IsFixed, reduceCtorEq, false_iff]
    rintro ⟨⟨hreuses, -⟩, ⟨rfl, -⟩, -⟩
    simp [hreuses] at hplace
  | true =>
    obtain ⟨rfl, hreuses⟩ := Bool.and_eq_true_iff.1 hplace
    by_cases hbuffer : ∃ ref, v = .buffer ref
    · obtain ⟨ref, rfl⟩ := hbuffer
      rw [deliver_buffer ref hreuses]
      simp [Value.IsFixed]
    · have hfixed : v.IsFixed true := ⟨rfl, fun ref h => hbuffer ⟨ref, h⟩⟩
      rw [deliver_of_not_buffer hfixed.2 hreuses]
      by_cases hkind : t.kind? = some .resize
      · simp [hkind]
      · have hne : (t.kind? != some .resize) = true := bne_iff_ne.2 hkind
        simp only [hne, if_true, Except.error.injEq]
        exact ⟨fun h => ⟨⟨hreuses, hkind⟩, hfixed, h.symm⟩, fun h => h.2.2.symm⟩

/-- An effect that is refused. -/
theorem result_eq_error_iff_of_error {refusal : Fault}
    (h : t.effect bs s.generators = .error refusal) :
    (t.result v inPlace bs s).1 = .error fault ↔ fault = refusal := by
  rw [result_of_error h, Except.error.injEq, eq_comm]

/-- An effect that is delivered into a new buffer. -/
theorem not_result_eq_error (h : t.effect bs s.generators = .ok (out, gs))
    (hnot : t.reuses bs.length = false ∨ t.kind? = some .resize) :
    ¬ (t.result v inPlace bs s).1 = .error fault := by
  rw [result_of_ok h, deliver_eq_error_iff]
  rintro ⟨⟨hreuses, hkind⟩, -⟩
  rcases hnot with hr | hk
  · simp [hreuses] at hr
  · exact hkind hk

/-- An effect that is delivered over the buffer. -/
theorem result_eq_error_iff_of_reuses (h : t.effect bs s.generators = .ok (out, gs))
    (hreuses : t.reuses bs.length = true) (hkind : t.kind? ≠ some .resize) :
    (t.result v inPlace bs s).1 = .error fault ↔
      v.IsFixed inPlace ∧ fault = .unusable (.notMutable v.kind) (some t.name) := by
  rw [result_of_ok h, deliver_eq_error_iff]
  exact and_iff_right ⟨hreuses, hkind⟩

theorem refuses_bitwise (second : Bytes) (mode : Mode) :
    ((bitwise second mode).result v inPlace bs s).1 = .error fault ↔
      (bitwise second mode).Refuses v inPlace bs fault := by
  by_cases hlength : bs.length = second.length
  · rw [result_eq_error_iff_of_reuses (effect_bitwise hlength) rfl (by simp [kind?])]
    simp [Refuses, hlength, name, kind?, Kind.name]
  · have heff : (bitwise second mode).effect bs s.generators
        = .error (.lengthMismatch second.length bs.length "bitwise") := by
      simp [effect, hlength]
    rw [result_eq_error_iff_of_error heff]
    simp [Refuses, hlength]

theorem refuses_shift (count : Int) (direction : Direction)
    (hfits : (shift count direction).Fits bs) :
    ((shift count direction).result v inPlace bs s).1 = .error fault ↔
      (shift count direction).Refuses v inPlace bs fault := by
  by_cases hempty : bs = []
  · have heff : (shift count direction).effect bs s.generators
        = .error (.unusable .emptyNumber (some "shift")) := by
      simp [effect, hempty]
    rw [result_eq_error_iff_of_error heff]
    simp [Refuses, hempty]
  · have hsmall : ¬ (bs.toInt ≠ 0 ∧ maxShift ≤ direction.toLeft count) := by
      rintro ⟨hne, hle⟩
      rcases hfits with hzero | hlt
      · exact hne hzero
      · omega
    have heff : (shift count direction).effect bs s.generators
        = .ok (Bytes.shift bs.toInt (direction.toLeft count), s.generators) := by
      simp only [effect, if_neg (mt List.length_eq_zero_iff.1 hempty), if_neg hsmall]
    exact iff_of_false (not_result_eq_error heff (Or.inl rfl)) fun h => hempty h.1

theorem refuses_sortBy (c : Comparator) :
    ((sort (some c)).result v inPlace bs s).1 = .error fault ↔
      (sort (some c)).Refuses v inPlace bs fault := by
  simp only [Refuses, ← Comparator.sort_eq_error_iff]
  cases hsort : c.sort (bs.map Bytes.signed) with
  | error message =>
    have heff : (sort (some c)).effect bs s.generators = .error (.badValue (.refused message)) := by
      simp [effect, hsort]
    rw [result_eq_error_iff_of_error heff]
    simp
  | ok values =>
    have heff : (sort (some c)).effect bs s.generators
        = .ok (values.map Bytes.ofSigned, s.generators) := by
      simp [effect, hsort]
    exact iff_of_false (not_result_eq_error heff (Or.inl rfl)) (by simp)

theorem refuses_copy (offset length : Int) (hfits : (copy offset length).Fits bs) :
    ((copy offset length).result v inPlace bs s).1 = .error fault ↔
      (copy offset length).Refuses v inPlace bs fault := by
  by_cases hout : IsOutside offset length bs.length
  · obtain ⟨hfirst, hlast⟩ := hfits hout
    have heff : (copy offset length).effect bs s.generators
        = .error (.outOfRange offset (offset + length) bs.length "copy") := by
      unfold IsOutside at hout
      rw [effect, if_pos hout, Fault.ofRange, hfirst, hlast]
      rfl
    rw [result_eq_error_iff_of_error heff]
    simp [Refuses, hout]
  · have heff : (copy offset length).effect bs s.generators
        = .ok ((bs.take (offset + length).toNat).drop offset.toNat, s.generators) := by
      unfold IsOutside at hout
      rw [effect, if_neg hout]
    exact iff_of_false (not_result_eq_error heff (Or.inl rfl)) fun h => hout h.1

theorem refuses_resize (size : Int) (hfits : (resize size).Fits bs) :
    ((resize size).result v inPlace bs s).1 = .error fault ↔
      (resize size).Refuses v inPlace bs fault := by
  by_cases hneg : size < 0
  · have hlength : (bs.length : Int) ≠ size := by omega
    have heff : (resize size).effect bs s.generators
        = .error (.unusable .negativeSize (some "resize")) := by
      simp only [effect, if_neg hlength, if_pos hneg]
    rw [result_eq_error_iff_of_error heff]
    simp [Refuses, hneg]
  · have hsmall : ¬ Value.maxLength < size - bs.length := Int.not_lt.2 hfits
    obtain ⟨out, heff⟩ : ∃ out, (resize size).effect bs s.generators = .ok (out, s.generators) := by
      simp only [effect, if_neg hneg, if_neg hsmall]
      split
      · exact ⟨_, rfl⟩
      split
      · exact ⟨_, rfl⟩
      split <;> exact ⟨_, rfl⟩
    exact iff_of_false (not_result_eq_error heff (Or.inr rfl)) fun h => hneg h.1

/-- **A transform refuses what `Refuses` says, and nothing else.** -/
theorem result_eq_error_iff (ht : t.IsOwn) (hfits : t.Fits bs) :
    (t.result v inPlace bs s).1 = .error fault ↔ t.Refuses v inPlace bs fault := by
  cases t with
  | bitwise second mode => exact refuses_bitwise second mode
  | negate => exact result_eq_error_iff_of_reuses rfl rfl (by simp [kind?])
  | shift count direction => exact refuses_shift count direction hfits
  | concat second => exact iff_of_false (not_result_eq_error rfl (Or.inl rfl)) id
  | reverse => exact result_eq_error_iff_of_reuses rfl rfl (by simp [kind?])
  | sort comparator =>
    cases comparator with
    | none => exact result_eq_error_iff_of_reuses rfl rfl (by simp [kind?])
    | some c => exact refuses_sortBy c
  | shuffle kind generator =>
    obtain ⟨out, gs, heff⟩ := effect_shuffle kind generator bs s.generators
    exact result_eq_error_iff_of_reuses heff rfl (by simp [kind?])
  | copy offset length => exact refuses_copy offset length hfits
  | resize size => exact refuses_resize size hfits
  | added p values => simp [IsOwn, kind?] at ht

end

/-! ## Guards -/

section

variable (v : Value) (inPlace : Bool) (s : Store)

/-- The mode of a transform that has been made is found by the code that looks for it. -/
theorem outcome_guardedBitwise (second : Bytes) (mode : Mode) :
    (Loose.applyBitwise (.bytes second) (.mode mode) v inPlace).outcome s
      = (applyBitwise second mode v inPlace).outcome s := by
  have hexpected : Value.length s.bytes (.bytes second) = .ok second.length :=
    Value.length_of_asBytes? rfl
  have hmode : ∀ contents, Loose.modeIn contents (.mode mode) = .ok mode := by
    intro contents
    cases mode <;> rfl
  simp only [Loose.applyBitwise, applyBitwise, Action.outcome_bind, Action.outcome_reading]
  cases v.length s.bytes with
  | error fault => rfl
  | ok length =>
    simp only [hexpected]
    split
    · rfl
    simp only [Action.outcome_bind, Action.outcome_reading, hmode, overwriteWith,
      Action.outcome_read, Action.outcome_write, Action.outcome_pure]
    rcases (Action.workspace v inPlace "bitwise").outcome s with ⟨fault | ref, s'⟩
    · rfl
    · dsimp only
      -- nothing is written over an empty buffer, which comes to writing nothing over it
      cases hbytes : s'.bytes ref with
      | nil =>
        have hsame := s'.overwrite_bytes ref
        rw [hbytes] at hsame
        simp [Bytes.combine, hsame]
      | cons b bs => rfl

/-- The direction of a transform that has been made is a member. -/
theorem outcome_guardedShift (count : Int) (direction : Direction) :
    (Loose.applyShift (.int count) (.direction direction) v).outcome s
      = (applyShift count direction v).outcome s := by
  have hcount : ∀ contents, Loose.shiftCount contents (.int count) direction = .ok count := by
    intro contents
    rfl
  simp only [Loose.applyShift, Action.outcome_bind, Action.outcome_reading]
  cases hlength : v.length s.bytes with
  | error fault => simp only [applyShift, Action.outcome_bind, Action.outcome_reading, hlength]
  | ok length =>
    dsimp only
    split
    · rename_i hzero
      simp only [applyShift, Action.outcome_bind, Action.outcome_reading, hlength, if_pos hzero]
    · rename_i hzero
      simp only [Action.outcome_bind, Action.outcome_reading, hcount]
      cases hnumber : v.toNumber s.bytes with
      | error fault =>
        simp only [applyShift, Action.outcome_bind, Action.outcome_reading, hlength, if_neg hzero,
          hnumber]
      | ok number => rfl

end

/-! ## Transforms that have been made -/

/-- **When a transform refuses, and what that leaves.** A transform that has been made refuses a
byte string just as `Refuses` says, if no number is too large. A refusal leaves all buffers and
generators. The guards for fields that have been overwritten are of no account. -/
theorem apply_refuses_iff {k : Kind} {t : Transform} (hmade : IsMade k t) {s : Store} {v : Value}
    {bs : Bytes} (hv : v.asBytes? s.bytes = some bs) (inPlace : Bool) (hfits : t.Fits bs) :
    (∀ fault, ((t.apply v inPlace).outcome s).1 = .error fault ↔ t.Refuses v inPlace bs fault) ∧
      (∀ fault s', (t.apply v inPlace).outcome s = (.error fault, s') → s' = s) ∧
      (k = .bitwise →
        (Loose.applyBitwise (Dict.get t.fields "second")
          (Dict.get t.fields "mode") v inPlace).outcome s = (t.apply v inPlace).outcome s) ∧
      (k = .shift →
        (Loose.applyShift (Dict.get t.fields "shift_count")
          (Dict.get t.fields "direction") v).outcome s = (t.apply v inPlace).outcome s) := by
  refine ⟨fun fault => ?_, fun fault s' hrun => ?_, ?_, ?_⟩
  · rw [outcome_apply hmade.isOwn hv]
    exact result_eq_error_iff hmade.isOwn hfits
  · have hdelivered := delivered_apply hmade.isOwn s v inPlace
    rw [hrun] at hdelivered
    cases hdelivered
    rfl
  · rintro rfl
    cases t with
    | bitwise second mode =>
      have hsecond : Dict.get (bitwise second mode).fields "second" = .bytes second := by
        simp [fields, Dict.get, Dict.get?, Dict.find?, Value.same, Value.asText?]
      have hmode : Dict.get (bitwise second mode).fields "mode" = .mode mode := by
        simp [fields, Dict.get, Dict.get?, Dict.find?, Value.same, Value.asText?]
      rw [hsecond, hmode]
      exact outcome_guardedBitwise v inPlace s second mode
    | _ => cases hmade.kind?
  · rintro rfl
    cases t with
    | shift count direction =>
      have hcount : Dict.get (shift count direction).fields "shift_count" = .int count := by
        simp [fields, Dict.get, Dict.get?, Dict.find?, Value.same, Value.asText?]
      have hdirection : Dict.get (shift count direction).fields "direction"
          = .direction direction := by
        simp [fields, Dict.get, Dict.get?, Dict.find?, Value.same, Value.asText?]
      rw [hcount, hdirection]
      exact outcome_guardedShift v s count direction
    | _ => cases hmade.kind?

/-- A combination in place is refused for the number of bytes before it is refused for bytes that
cannot be overwritten. A range is refused that ends behind the bytes. -/
theorem apply_refuses_iff_view :
    ((apply (bitwise [1, 2] .xor) (.view [3, 4, 5]) true).outcome .empty).1
        = .error (.lengthMismatch 2 3 "bitwise") ∧
      ((apply (bitwise [1, 2] .xor) (.view [3, 4]) true).outcome .empty).1
        = .error (.unusable (.notMutable "memoryview") (some "bitwise")) ∧
      ((apply (copy 1 3) (.view [3, 4, 5]) true).outcome .empty).1
        = .error (.outOfRange 1 4 3 "copy") := by
  have hbitwise : IsMade .bitwise (bitwise [1, 2] .xor) := isMade_iff.2 rfl
  have hcopy : IsMade .copy (copy 1 3) := isMade_iff.2 rfl
  have hfixed : ∀ bs, (Value.view bs).IsFixed true := fun bs => ⟨rfl, fun ref h => by cases h⟩
  have htwo : (Value.view [3, 4]).asBytes? Store.empty.bytes = some [3, 4] := rfl
  have hthree : (Value.view [3, 4, 5]).asBytes? Store.empty.bytes = some [3, 4, 5] := rfl
  have hfits : (copy 1 3).Fits [3, 4, 5] := fun _ => by decide +kernel
  exact ⟨((apply_refuses_iff hbitwise hthree true trivial).1 _).2 (Or.inl ⟨by decide, rfl⟩),
    ((apply_refuses_iff hbitwise htwo true trivial).1 _).2 (Or.inr ⟨rfl, hfixed _, rfl⟩),
    ((apply_refuses_iff hcopy hthree true hfits).1 _).2 ⟨Or.inr (Or.inr (by decide)), rfl⟩⟩

end Transform

end Octets
