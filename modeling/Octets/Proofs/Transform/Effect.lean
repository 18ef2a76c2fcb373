import Octets.Transform.Apply

/-!
# What a transform does to bytes

`Transform.effect` says what a transform of this library makes of some bytes, with the generators as
they are, or why it refuses them. No store is involved. `Transform.deliver` says where the bytes go:
`Transform.reuses` tells the transforms that overwrite the buffer they are given when they work in
place.

* `outcome_apply` — to apply a transform to a byte string is to deliver its effect. A refusal leaves
  the store as it was.
* `exists_deliver` — what is delivered is a buffer of the store with the bytes of the effect.
* `exists_describe` — a transform can be described if its integers can be written.
-/

namespace Octets

open Octets.Random (Generator)

namespace Transform

/-- A transform of this library, none that a caller adds. -/
def IsOwn (t : Transform) : Prop := t.kind?.isSome = true

/-- Does the transform, when it works in place, overwrite a buffer of this length and return it? -/
def reuses (t : Transform) (length : Nat) : Bool :=
  match t with
  | bitwise .. => true
  | negate => true
  | reverse => true
  | sort none => true
  | shuffle .. => true
  | resize size => decide ((length : Int) = size)
  | _ => false

/-! ## Effects -/

/-- What the transform makes of bytes, and the generators behind it, or why it refuses the bytes.
This is for the transforms of this library; what a caller adds may do anything. -/
def effect (t : Transform) (bs : Bytes) (gs : List Generator) :
    Except Fault (Bytes × List Generator) :=
  match t with
  | bitwise second mode =>
    if bs.length ≠ second.length then .error (.lengthMismatch second.length bs.length "bitwise")
    else .ok (bs.combine mode second, gs)
  | negate => .ok (bs.complement, gs)
  | shift count direction =>
    let amount := direction.toLeft count
    if bs.length = 0 then .error (.unusable .emptyNumber (some "shift"))
    else if bs.toInt ≠ 0 ∧ maxShift ≤ amount then .error (.overflow .digits)
    else .ok (Bytes.shift bs.toInt amount, gs)
  | concat second => .ok (bs ++ second, gs)
  | reverse => .ok (bs.swapReverse, gs)
  | sort none => .ok (bs.sort, gs)
  | sort (some c) =>
    match c.sort (bs.map Bytes.signed) with
    | .ok values => .ok (values.map Bytes.ofSigned, gs)
    | .error message => .error (.badValue (.refused message))
  | shuffle _ generator =>
    match gs[generator]? with
    | none => .ok (bs, gs)
    | some g => .ok ((bs.shuffle g).1, gs.set generator (bs.shuffle g).2)
  | copy offset length =>
    if offset < 0 ∨ length < 0 ∨ bs.length < offset + length then
      .error (.ofRange offset (offset + length) bs.length "copy")
    else .ok ((bs.take (offset + length).toNat).drop offset.toNat, gs)
  | resize size =>
    if (bs.length : Int) = size then .ok (bs, gs)
    else if size < 0 then .error (.unusable .negativeSize (some "resize"))
    else if size = 0 then .ok ([], gs)
    else if bs.length < size then
      if Value.maxLength < size - bs.length then .error (.overflow .size)
      else .ok (List.replicate (size.toNat - bs.length) 0 ++ bs, gs)
    else .ok (bs.drop (bs.length - size.toNat), gs)
  | added .. => .ok (bs, gs)

/-- Where the bytes go that a transform makes of a value: over the buffer itself if that is asked
and buffers of the length are reused, else into a new buffer. A byte string that is no buffer cannot
be overwritten; only a resize that keeps the length copies it then. -/
def deliver (t : Transform) (v : Value) (inPlace : Bool) (length : Nat) (out : Bytes)
    (gs : List Generator) (s : Store) : Except Fault Nat × Store :=
  match v, inPlace && t.reuses length with
  | .buffer ref, true => (.ok ref, { s.overwrite ref out with generators := gs })
  | v, reused =>
    if reused && t.kind? != some .resize then
      (.error (.unusable (.notMutable v.kind) (some t.name)), s)
    else (.ok s.buffers.length, { (s.add out).2 with generators := gs })

/-- What applying the transform to the byte string `bs` comes to: its effect, delivered. -/
def result (t : Transform) (v : Value) (inPlace : Bool) (bs : Bytes) (s : Store) :
    Except Fault Nat × Store :=
  match t.effect bs s.generators with
  | .error fault => (.error fault, s)
  | .ok (out, gs) => t.deliver v inPlace bs.length out gs s

end Transform

/-! ## Byte strings in a store -/

namespace Store

/-- The value is a byte string with these bytes. If it is a buffer, the store has it. -/
structure Holds (s : Store) (v : Value) (bs : Bytes) : Prop where
  asBytes? : v.asBytes? s.bytes = some bs
  isLive : ∀ ref, v = .buffer ref → ref < s.buffers.length

theorem holds_buffer {s : Store} {ref : Nat} {bs : Bytes} (hlive : ref < s.buffers.length)
    (hbytes : s.bytes ref = bs) : s.Holds (.buffer ref) bs where
  asBytes? := by rw [← hbytes]; rfl
  isLive := by
    rintro _ ⟨⟩
    exact hlive

theorem holds_bytes (s : Store) (bs : Bytes) : s.Holds (.bytes bs) bs where
  asBytes? := rfl
  isLive := nofun

theorem holds_view (s : Store) (bs : Bytes) : s.Holds (.view bs) bs where
  asBytes? := rfl
  isLive := nofun

theorem Holds.bytes_eq {s : Store} {ref : Nat} {bs : Bytes} (h : s.Holds (.buffer ref) bs) :
    s.bytes ref = bs :=
  Option.some.inj h.asBytes?

/-- A new buffer has its bytes, whatever becomes of the generators. -/
theorem holds_added (s : Store) (out : Bytes) (gs : List Generator) :
    ({ (s.add out).2 with generators := gs } : Store).Holds (.buffer s.buffers.length) out :=
  holds_buffer (by simp) (s.bytes_add_length out)

theorem holds_add (s : Store) (bs : Bytes) : (s.add bs).2.Holds (.buffer s.buffers.length) bs :=
  s.holds_added bs s.generators

/-- So has a buffer that is overwritten. -/
theorem holds_overwritten {s : Store} {ref : Nat} (hlive : ref < s.buffers.length) (out : Bytes)
    (gs : List Generator) :
    ({ s.overwrite ref out with generators := gs } : Store).Holds (.buffer ref) out :=
  holds_buffer (by simpa using hlive) (s.bytes_overwrite out hlive)

/-- A new buffer leaves the others as they are. -/
theorem Holds.of_add {s : Store} {v : Value} {bs : Bytes} (h : s.Holds v bs) (out : Bytes) :
    (s.add out).2.Holds v bs := by
  refine ⟨?_, fun ref hv => Nat.lt_of_lt_of_le (h.isLive ref hv) (by simp)⟩
  rw [← h.asBytes?]
  cases v with
  | buffer ref => exact congrArg some (s.bytes_add_of_lt out (h.isLive ref rfl))
  | _ => rfl

/-- A buffer that is overwritten leaves the others as they are. -/
theorem Holds.of_overwrite {s : Store} {v : Value} {bs : Bytes} {ref : Nat} (h : s.Holds v bs)
    (hne : v ≠ .buffer ref) (out : Bytes) : (s.overwrite ref out).Holds v bs := by
  refine ⟨?_, fun other hv => by simpa using h.isLive other hv⟩
  rw [← h.asBytes?]
  cases v with
  | buffer other =>
    have hother : other ≠ ref := fun heq => hne (congrArg Value.buffer heq)
    exact congrArg some (s.bytes_overwrite_of_ne out hother)
  | _ => rfl

end Store

namespace Transform

/-! ## Delivering -/

section

variable {s : Store} {t : Transform} {v : Value} {inPlace : Bool} {bs out : Bytes}
  {gs : List Generator}

/-- The three kinds of byte strings. -/
theorem cases_of_asBytes? {contents : Nat → Bytes} (h : v.asBytes? contents = some bs) :
    (∃ ref, v = .buffer ref ∧ contents ref = bs) ∨ v = .bytes bs ∨ v = .view bs := by
  cases v <;> simp_all [Value.asBytes?]

theorem deliver_of_not_reuses {length : Nat} (h : (inPlace && t.reuses length) = false) :
    t.deliver v inPlace length out gs s
      = (.ok s.buffers.length, { (s.add out).2 with generators := gs }) := by
  unfold deliver
  rw [h]
  cases v <;> rfl

theorem deliver_buffer {length : Nat} (ref : Nat) (h : t.reuses length = true) :
    t.deliver (.buffer ref) true length out gs s
      = (.ok ref, { s.overwrite ref out with generators := gs }) := by
  simp [deliver, h]

/-- What is no buffer cannot be overwritten. -/
theorem deliver_of_not_buffer {length : Nat} (hv : ∀ ref, v ≠ .buffer ref)
    (h : t.reuses length = true) :
    t.deliver v true length out gs s
      = if t.kind? != some .resize then (.error (.unusable (.notMutable v.kind) (some t.name)), s)
        else (.ok s.buffers.length, { (s.add out).2 with generators := gs }) := by
  unfold deliver
  rw [h]
  cases v with
  | buffer ref => exact absurd rfl (hv ref)
  | _ => rfl

theorem result_of_error {fault : Fault} (h : t.effect bs s.generators = .error fault) :
    t.result v inPlace bs s = (.error fault, s) := by
  rw [result, h]

theorem result_of_ok (h : t.effect bs s.generators = .ok (out, gs)) :
    t.result v inPlace bs s = t.deliver v inPlace bs.length out gs s := by
  rw [result, h]

/-- Bytes that are delivered into a new buffer, with the generators as they were. -/
theorem result_of_allocate (hr : t.reuses bs.length = false)
    (h : t.effect bs s.generators = .ok (out, s.generators)) :
    t.result v inPlace bs s = (.ok s.buffers.length, (s.add out).2) := by
  rw [result_of_ok h, deliver_of_not_reuses (by rw [hr, Bool.and_false])]
  rfl

/-! ## Kind by kind -/

theorem outcome_overwriteWith (h : v.asBytes? s.bytes = some bs) (f : Bytes → Bytes)
    (ht : t.reuses bs.length = true) (hkind : t.kind? ≠ some .resize) :
    (overwriteWith t.name v inPlace f).outcome s
      = t.deliver v inPlace bs.length (f bs) s.generators s := by
  cases inPlace with
  | false =>
    rw [deliver_of_not_reuses rfl]
    simp [overwriteWith, Action.workspace, Action.outcome_toBuffer h, Store.overwrite_add]
    rfl
  | true =>
    -- of the three kinds of byte strings only a buffer can be overwritten
    rcases cases_of_asBytes? h with ⟨ref, rfl, rfl⟩ | rfl | rfl
    · rw [deliver_buffer ref ht]
      rfl
    · simp [overwriteWith, Action.workspace, Action.requireMutable, deliver, ht, hkind]
    · simp [overwriteWith, Action.workspace, Action.requireMutable, deliver, ht, hkind]

theorem effect_bitwise {second : Bytes} {mode : Mode} (h : bs.length = second.length) :
    (bitwise second mode).effect bs gs = .ok (bs.combine mode second, gs) := by
  rw [effect, if_neg (not_not_intro h)]

theorem outcome_applyBitwise (h : v.asBytes? s.bytes = some bs) (second : Bytes) (mode : Mode) :
    (applyBitwise second mode v inPlace).outcome s
      = (bitwise second mode).result v inPlace bs s := by
  simp only [applyBitwise, Action.outcome_bind, Action.outcome_reading, Value.length_of_asBytes? h]
  by_cases hlen : bs.length = second.length
  · rw [if_neg (not_not_intro hlen), result_of_ok (effect_bitwise hlen)]
    exact outcome_overwriteWith h _ (t := bitwise second mode) rfl (by simp [kind?])
  · have heff : (bitwise second mode).effect bs s.generators
        = .error (.lengthMismatch second.length bs.length "bitwise") := by
      simp [effect, hlen]
    rw [if_pos hlen, result_of_error heff]
    rfl

theorem outcome_applyShift (h : v.asBytes? s.bytes = some bs) (count : Int)
    (direction : Direction) :
    (applyShift count direction v).outcome s
      = (shift count direction).result v inPlace bs s := by
  simp only [applyShift, Action.outcome_bind, Action.outcome_reading, Value.length_of_asBytes? h]
  by_cases hlen : bs.length = 0
  · have heff : (shift count direction).effect bs s.generators
        = .error (.unusable .emptyNumber (some "shift")) := by
      simp only [effect, if_pos hlen]
    rw [if_pos hlen, result_of_error heff]
    rfl
  · rw [if_neg hlen]
    simp only [Action.outcome_bind, Action.outcome_reading, Value.toNumber_of_asBytes? h]
    by_cases hbig : bs.toInt ≠ 0 ∧ maxShift ≤ direction.toLeft count
    · have heff : (shift count direction).effect bs s.generators = .error (.overflow .digits) := by
        simp only [effect, if_neg hlen, if_pos hbig]
      rw [if_pos hbig, result_of_error heff]
      rfl
    · have heff : (shift count direction).effect bs s.generators
          = .ok (Bytes.shift bs.toInt (direction.toLeft count), s.generators) := by
        simp only [effect, if_neg hlen, if_neg hbig]
      rw [if_neg hbig, result_of_allocate rfl heff]
      rfl

theorem outcome_concat (h : v.asBytes? s.bytes = some bs) (second : Bytes) :
    ((concat second).apply v inPlace).outcome s = (concat second).result v inPlace bs s := by
  have hjoined : Value.joined s.bytes [v, .bytes second] = .ok (bs ++ second) := by
    rw [Value.joined_cons_of_asBytes? h]
    simp [Value.joined, Value.asBytes?, Except.map, bind, Except.bind, pure, Except.pure]
  rw [result_of_allocate rfl rfl]
  simp [apply, hjoined]

theorem signedItems_ofBytes (bs : Bytes) :
    signedItems (Value.ofBytes bs) = .ok (bs.map Bytes.signed) := by
  induction bs with
  | nil => rfl
  | cons b bs ih =>
    have hb : (Value.int b.toNat).toSigned = .ok (.int (Bytes.signed b)) := by
      by_cases hhigh : 127 < b.toNat
      · have hint : (127 : Int) < b.toNat := by omega
        simp only [Value.toSigned, Value.asWhole?, Bytes.signed, if_pos hhigh, if_pos hint]
      · have hint : ¬ (127 : Int) < b.toNat := by omega
        simp only [Value.toSigned, Value.asWhole?, Bytes.signed, if_neg hhigh, if_neg hint]
    have hcons : Value.ofBytes (b :: bs) = .int b.toNat :: Value.ofBytes bs := rfl
    rw [hcons, signedItems, hb, ih]
    rfl

theorem outcome_applySortBy (h : v.asBytes? s.bytes = some bs) (c : Comparator) :
    (applySortBy c v).outcome s = (sort (some c)).result v inPlace bs s := by
  have hitems : (do
      let items ← v.items s.bytes
      signedItems items) = .ok (bs.map Bytes.signed) := by
    rw [Value.items_of_asBytes? h]
    exact signedItems_ofBytes bs
  simp only [applySortBy, Action.outcome_bind, Action.outcome_reading, hitems,
    Action.outcome_ofExcept]
  cases hsort : c.sort (bs.map Bytes.signed) with
  | error message =>
    have heff : (sort (some c)).effect bs s.generators = .error (.badValue (.refused message)) := by
      simp [effect, hsort]
    rw [result_of_error heff]
    rfl
  | ok values =>
    have heff : (sort (some c)).effect bs s.generators
        = .ok (values.map Bytes.ofSigned, s.generators) := by
      simp [effect, hsort]
    rw [result_of_allocate rfl heff]
    rfl

/-- A shuffle writes the bytes and the generators that are its effect. -/
theorem shuffleBuffer_eq (kind : GeneratorKind) {generator : Nat} {ref : Nat}
    (h : (shuffle kind generator).effect (s.bytes ref) s.generators = .ok (out, gs)) :
    shuffleBuffer generator ref s = { s.overwrite ref out with generators := gs } := by
  unfold shuffleBuffer
  cases hg : s.generators[generator]? with
  | none =>
    simp only [effect, hg, Except.ok.injEq, Prod.mk.injEq] at h
    obtain ⟨rfl, rfl⟩ := h
    rw [s.overwrite_bytes]
  | some g =>
    simp only [effect, hg, Except.ok.injEq, Prod.mk.injEq] at h
    obtain ⟨rfl, rfl⟩ := h
    rfl

/-- A shuffle refuses no bytes. -/
theorem effect_shuffle (kind : GeneratorKind) (generator : Nat) (bs : Bytes)
    (gs : List Generator) :
    ∃ out after, (shuffle kind generator).effect bs gs = .ok (out, after) := by
  cases hg : gs[generator]? with
  | none => exact ⟨bs, gs, by simp [effect, hg]⟩
  | some g => exact ⟨(bs.shuffle g).1, gs.set generator (bs.shuffle g).2, by simp [effect, hg]⟩

theorem outcome_applyShuffle (h : v.asBytes? s.bytes = some bs) (kind : GeneratorKind)
    (generator : Nat) :
    (applyShuffle generator v inPlace).outcome s
      = (shuffle kind generator).result v inPlace bs s := by
  obtain ⟨out, gs, heff⟩ := effect_shuffle kind generator bs s.generators
  rw [result_of_ok heff]
  cases inPlace with
  | false =>
    -- the copy has the bytes and the store still its generators, so the effect is the same
    have hcopy : shuffleBuffer generator s.buffers.length (s.add bs).2
        = { (s.add bs).2.overwrite s.buffers.length out with generators := gs } :=
      shuffleBuffer_eq kind (by rw [s.bytes_add_length]; exact heff)
    rw [deliver_of_not_reuses rfl]
    simp [applyShuffle, Action.workspace, Action.outcome_toBuffer h, hcopy, Store.overwrite_add]
  | true =>
    rcases cases_of_asBytes? h with ⟨ref, rfl, rfl⟩ | rfl | rfl
    · rw [deliver_buffer ref rfl, ← shuffleBuffer_eq kind heff]
      rfl
    · rfl
    · rfl

theorem outcome_applyCopy (h : v.asBytes? s.bytes = some bs) (offset length : Int) :
    (applyCopy offset length v).outcome s = (copy offset length).result v inPlace bs s := by
  simp only [applyCopy, Action.outcome_bind, Action.outcome_reading, Value.length_of_asBytes? h]
  by_cases hout : offset < 0 ∨ length < 0 ∨ bs.length < offset + length
  · have heff : (copy offset length).effect bs s.generators
        = .error (.ofRange offset (offset + length) bs.length "copy") := by
      simp only [effect, if_pos hout]
    rw [if_pos hout, result_of_error heff]
    rfl
  · have heff : (copy offset length).effect bs s.generators
        = .ok ((bs.take (offset + length).toNat).drop offset.toNat, s.generators) := by
      simp only [effect, if_neg hout]
    rw [if_neg hout, result_of_allocate rfl heff]
    simp only [Action.outcome_bind, Action.outcome_reading, Value.slice_of_asBytes? h]
    rfl

/-- A resize to the present length keeps the buffer in place and copies anything else. -/
theorem outcome_applyResize_length (h : v.asBytes? s.bytes = some bs) :
    (applyResize bs.length v inPlace).outcome s
      = (resize bs.length).deliver v inPlace bs.length bs s.generators s := by
  have hreuses : (resize bs.length).reuses bs.length = true := by simp [reuses]
  simp only [applyResize, Action.outcome_bind, Action.outcome_reading, Value.length_of_asBytes? h,
    if_true]
  cases inPlace with
  | false =>
    rw [deliver_of_not_reuses rfl]
    rcases cases_of_asBytes? h with ⟨ref, rfl, hbytes⟩ | rfl | rfl <;>
      exact Action.outcome_toBuffer h
  | true =>
    rcases cases_of_asBytes? h with ⟨ref, rfl, hbytes⟩ | rfl | rfl
    · rw [deliver_buffer ref hreuses, ← hbytes, s.overwrite_bytes]
      rfl
    · simp only [deliver, hreuses, Bool.and_self, kind?]
      exact Action.outcome_toBuffer h
    · simp only [deliver, hreuses, Bool.and_self, kind?]
      exact Action.outcome_toBuffer h

theorem outcome_applyResize (h : v.asBytes? s.bytes = some bs) (size : Int) :
    (applyResize size v inPlace).outcome s = (resize size).result v inPlace bs s := by
  -- the tests in their order; only the first case may keep the buffer
  by_cases hsame : (bs.length : Int) = size
  · have heff : (resize size).effect bs s.generators = .ok (bs, s.generators) := by
      simp only [effect, if_pos hsame]
    rw [result_of_ok heff, ← hsame]
    exact outcome_applyResize_length h
  have hreuses : (resize size).reuses bs.length = false := by simp [reuses, hsame]
  simp only [applyResize, Action.outcome_bind, Action.outcome_reading, Value.length_of_asBytes? h,
    if_neg hsame]
  by_cases hneg : size < 0
  · have heff : (resize size).effect bs s.generators
        = .error (.unusable .negativeSize (some "resize")) := by
      simp only [effect, if_neg hsame, if_pos hneg]
    rw [if_pos hneg, result_of_error heff]
    rfl
  rw [if_neg hneg]
  by_cases hzero : size = 0
  · have heff : (resize size).effect bs s.generators = .ok ([], s.generators) := by
      simp only [effect, if_neg hsame, if_neg hneg, if_pos hzero]
    rw [if_pos hzero, result_of_allocate hreuses heff]
    rfl
  rw [if_neg hzero]
  by_cases hgrow : (bs.length : Int) < size
  · rw [if_pos hgrow]
    by_cases hbig : Value.maxLength < size - bs.length
    · have heff : (resize size).effect bs s.generators = .error (.overflow .size) := by
        simp only [effect, if_neg hsame, if_neg hneg, if_neg hzero, if_pos hgrow, if_pos hbig]
      rw [if_pos hbig, result_of_error heff]
      rfl
    · have heff : (resize size).effect bs s.generators
          = .ok (List.replicate (size.toNat - bs.length) 0 ++ bs, s.generators) := by
        simp only [effect, if_neg hsame, if_neg hneg, if_neg hzero, if_pos hgrow, if_neg hbig]
      have hjoined : Value.joined s.bytes [v] = .ok bs := by
        rw [Value.joined_cons_of_asBytes? h]
        simp [Value.joined, Except.map]
      rw [if_neg hbig, result_of_allocate hreuses heff]
      simp only [Action.outcome_bind, Action.outcome_reading, hjoined]
      rfl
  · have heff : (resize size).effect bs s.generators
        = .ok (bs.drop (bs.length - size.toNat), s.generators) := by
      simp only [effect, if_neg hsame, if_neg hneg, if_neg hzero, if_neg hgrow]
    rw [if_neg hgrow, result_of_allocate hreuses heff]
    simp only [Action.outcome_bind, Action.outcome_reading, Value.slice_of_asBytes? h,
      List.take_length]
    rfl

/-- **To apply a transform to a byte string is to deliver its effect.** -/
theorem outcome_apply (ht : t.IsOwn) (h : v.asBytes? s.bytes = some bs) :
    (t.apply v inPlace).outcome s = t.result v inPlace bs s := by
  cases t with
  | bitwise second mode => exact outcome_applyBitwise h second mode
  | negate => exact outcome_overwriteWith h _ (t := negate) rfl (by simp [kind?])
  | shift count direction => exact outcome_applyShift h count direction
  | concat second => exact outcome_concat h second
  | reverse => exact outcome_overwriteWith h _ (t := reverse) rfl (by simp [kind?])
  | sort comparator =>
    cases comparator with
    | none => exact outcome_overwriteWith h _ (t := sort none) rfl (by simp [kind?])
    | some c => exact outcome_applySortBy h c
  | shuffle kind generator => exact outcome_applyShuffle h kind generator
  | copy offset length => exact outcome_applyCopy h offset length
  | resize size => exact outcome_applyResize h size
  | added p values => simp [IsOwn, kind?] at ht

/-! ## What is delivered -/

/-- A buffer that can be written, or a byte string that is copied, takes every effect. -/
theorem exists_deliver (hv : s.Holds v bs) (inPlace : Bool)
    (hplace : inPlace = true → ∃ ref, v = .buffer ref) (t : Transform) (out : Bytes)
    (gs : List Generator) :
    ∃ ref s', t.deliver v inPlace bs.length out gs s = (.ok ref, s') ∧
      s'.Holds (.buffer ref) out ∧ s'.generators = gs ∧ s'.journal = s.journal := by
  by_cases hreuses : (inPlace && t.reuses bs.length) = true
  · obtain ⟨rfl, hr⟩ := Bool.and_eq_true_iff.1 hreuses
    obtain ⟨ref, rfl⟩ := hplace rfl
    refine ⟨ref, _, deliver_buffer ref hr, ?_, rfl, rfl⟩
    exact Store.holds_overwritten (hv.isLive ref rfl) out gs
  · rw [Bool.not_eq_true] at hreuses
    refine ⟨_, _, deliver_of_not_reuses hreuses, ?_, rfl, rfl⟩
    exact s.holds_added out gs

end

/-! ## Descriptions -/

/-- The integers among the parameters have few enough digits to be written. -/
def IsWritable : Transform → Prop
  | shift count _ => Decimal.isWritable count = true
  | copy offset length => Decimal.isWritable offset = true ∧ Decimal.isWritable length = true
  | resize size => Decimal.isWritable size = true
  | _ => True

theorem integerText_of_isWritable {n : Int} (h : Decimal.isWritable n = true) :
    integerText n = .ok (Decimal.integerString n) := by
  rw [integerText, Decimal.write, if_pos h]
  rfl

theorem exists_describe {t : Transform} (ht : t.IsOwn) (hw : t.IsWritable)
    (contents : Nat → Bytes) : ∃ description, t.describe contents = .ok description := by
  cases t with
  | shift count direction =>
    simp only [describe, integerText_of_isWritable hw]
    exact ⟨_, rfl⟩
  | copy offset length =>
    simp only [describe, integerText_of_isWritable hw.1, integerText_of_isWritable hw.2]
    exact ⟨_, rfl⟩
  | resize size =>
    simp only [describe, integerText_of_isWritable hw]
    exact ⟨_, rfl⟩
  | sort comparator => cases comparator <;> exact ⟨_, rfl⟩
  | added p values => simp [IsOwn, kind?] at ht
  | _ => exact ⟨_, rfl⟩

end Transform

end Octets
