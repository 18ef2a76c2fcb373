import Mathlib
import Octets.Proofs.Transform.Sequence
import Octets.Proofs.Value.Parse
import Octets.Routine

/-!
# Cutting and joining

Cut points divide bytes into ranges. Copies of the ranges, joined again, are the bytes; and what has
been joined is cut into its pieces again at the points between them.

* `flatten_ranges` — the ranges between cut points give the bytes, by induction on the points.
* `map_ranges_cutPoints` — joined pieces are found in their ranges, by induction on the pieces.
* `exists_copyEach` — copies one after the other: each is a new buffer, so the bytes that are copied
  stay as they are, and so do the copies before it.
* `joins_of_forall₂` — the two ways of joining, all at once and by a transform for every piece.
* `cut_join_inverse` — all of it for the transforms.
-/

namespace Octets

namespace Bytes

/-! ## Ranges -/

/-- The bytes of a range, which is given by its offset and its length. -/
def range (bs : Bytes) (r : Int × Int) : Bytes := (bs.take (r.1 + r.2).toNat).drop r.1.toNat

/-- The ranges between the points, each from one to the next. -/
def ranges : List Int → List (Int × Int)
  | first :: second :: rest => (first, second - first) :: ranges (second :: rest)
  | _ => []

/-- The points cut a byte string of this length: they begin at 0, none lies before the one in front
of it, and they end at the length. -/
structure IsCutting (cuts : List Int) (length : Nat) : Prop where
  head : cuts.head? = some 0
  ordered : cuts.Pairwise (· ≤ ·)
  last : cuts.getLast? = some (length : Int)

/-- The points behind each of the byte strings, if the first of them begins at the offset. -/
def cutPoints : Int → List Bytes → List Int
  | _, [] => []
  | offset, bs :: rest => (offset + bs.length) :: cutPoints (offset + bs.length) rest

variable {bs : Bytes}

theorem take_drop_append_drop {first second : Nat} (h : first ≤ second) (bs : Bytes) :
    (bs.take second).drop first ++ bs.drop second = bs.drop first := by
  rw [List.drop_take, show bs.drop second = (bs.drop first).drop (second - first) by
    rw [List.drop_drop, Nat.add_sub_cancel' h]]
  exact List.take_append_drop _ _

theorem range_natCast (bs : Bytes) (offset length : Nat) :
    bs.range (offset, length) = (bs.drop offset).take length := by
  rw [range, ← Nat.cast_add, Int.toNat_natCast, Int.toNat_natCast, List.drop_take,
    Nat.add_sub_cancel_left]

/-- A range that lies inside is one of natural numbers. -/
theorem exists_natCast_of_inside {offset length : Int} {size : Nat}
    (h : ¬ Transform.IsOutside offset length size) :
    ∃ a b : Nat, offset = a ∧ length = b ∧ a + b ≤ size := by
  obtain ⟨hoffset, hrest⟩ := not_or.1 h
  obtain ⟨hlength, hend⟩ := not_or.1 hrest
  exact ⟨offset.toNat, length.toNat, by omega, by omega, by omega⟩

/-- **A range of a range is a range.** -/
theorem range_range {offset₁ length₁ offset₂ length₂ : Int}
    (hfirst : ¬ Transform.IsOutside offset₁ length₁ bs.length)
    (hsecond : ¬ Transform.IsOutside offset₂ length₂ (bs.range (offset₁, length₁)).length) :
    ¬ Transform.IsOutside (offset₁ + offset₂) length₂ bs.length ∧
      (bs.range (offset₁, length₁)).range (offset₂, length₂)
        = bs.range (offset₁ + offset₂, length₂) := by
  obtain ⟨a, b, rfl, rfl, hab⟩ := exists_natCast_of_inside hfirst
  obtain ⟨c, d, rfl, rfl, hcd⟩ := exists_natCast_of_inside hsecond
  rw [range_natCast, List.length_take, List.length_drop] at hcd
  constructor
  · rintro (h | h | h) <;> omega
  · rw [← Nat.cast_add, range_natCast, range_natCast, range_natCast, List.drop_take, List.drop_drop,
      List.take_take, min_eq_left (by omega)]

/-! ### Between cut points -/

theorem last_le {first : Int} {cuts : List Int} (hordered : (first :: cuts).Pairwise (· ≤ ·))
    {last : Int} (hlast : (first :: cuts).getLast? = some last) : first ≤ last := by
  rcases List.mem_cons.1 (List.mem_of_getLast? hlast) with rfl | hmem
  · exact le_rfl
  · exact (List.pairwise_cons.1 hordered).1 last hmem

/-- **The ranges from a point on give the bytes from it on.** -/
theorem flatten_ranges {first : Int} {cuts : List Int} (hfirst : 0 ≤ first)
    (hordered : (first :: cuts).Pairwise (· ≤ ·))
    (hlast : (first :: cuts).getLast? = some (bs.length : Int)) :
    ((ranges (first :: cuts)).map bs.range).flatten = bs.drop first.toNat ∧
      ∀ r ∈ ranges (first :: cuts), ¬ Transform.IsOutside r.1 r.2 bs.length := by
  induction cuts generalizing first with
  | nil =>
    obtain rfl : first = bs.length := Option.some.inj hlast
    simp [ranges]
  | cons second rest ih =>
    obtain ⟨hle, hrest⟩ := List.pairwise_cons.1 hordered
    have hnext : first ≤ second := hle second List.mem_cons_self
    rw [List.getLast?_cons_cons] at hlast
    obtain ⟨hflatten, hinside⟩ := ih (hfirst.trans hnext) hrest hlast
    have hend : second ≤ bs.length := last_le hrest hlast
    constructor
    · rw [ranges, List.map_cons, List.flatten_cons, hflatten, range, add_sub_cancel]
      exact take_drop_append_drop (Int.toNat_le_toNat hnext) bs
    · rw [ranges]
      refine List.forall_mem_cons.2 ⟨?_, hinside⟩
      rintro (h | h | h) <;> omega

theorem IsCutting.flatten_ranges {cuts : List Int} (h : IsCutting cuts bs.length) :
    ((ranges cuts).map bs.range).flatten = bs ∧
      ∀ r ∈ ranges cuts, ¬ Transform.IsOutside r.1 r.2 bs.length := by
  obtain ⟨rest, rfl⟩ := List.head?_eq_some_iff.1 h.head
  exact Bytes.flatten_ranges le_rfl h.ordered h.last

/-! ### Between pieces -/

theorem length_ranges_cutPoints (offset : Int) (pieces : List Bytes) :
    (ranges (offset :: cutPoints offset pieces)).length = pieces.length := by
  induction pieces generalizing offset with
  | nil => rfl
  | cons bs rest ih => rw [cutPoints, ranges, List.length_cons, ih, List.length_cons]

/-- **Every piece is found in its range**, behind whatever stands in front. -/
theorem map_ranges_cutPoints (front : Bytes) (pieces : List Bytes) :
    (ranges (front.length :: cutPoints front.length pieces)).map (front ++ pieces.flatten).range
      = pieces := by
  induction pieces generalizing front with
  | nil => rfl
  | cons bs rest ih =>
    have hnext := ih (front ++ bs)
    rw [List.length_append, Nat.cast_add] at hnext
    rw [cutPoints, ranges, List.map_cons, List.flatten_cons, ← List.append_assoc, hnext]
    congr 1
    rw [add_sub_cancel_left, range_natCast, List.append_assoc, List.drop_left, List.take_left]

theorem cutPoints_ordered (offset : Int) (pieces : List Bytes) :
    (offset :: cutPoints offset pieces).Pairwise (· ≤ ·) := by
  rw [← List.isChain_iff_pairwise]
  induction pieces generalizing offset with
  | nil => exact .singleton offset
  | cons bs rest ih =>
    exact List.isChain_cons_cons.2 ⟨by simp, ih (offset + bs.length)⟩

theorem getLast?_cutPoints (offset : Int) (pieces : List Bytes) :
    (offset :: cutPoints offset pieces).getLast? = some (offset + pieces.flatten.length) := by
  induction pieces generalizing offset with
  | nil => simp [cutPoints]
  | cons bs rest ih =>
    rw [cutPoints, List.getLast?_cons_cons, ih, List.flatten_cons, List.length_append, Nat.cast_add,
      add_assoc]

theorem isCutting_cutPoints (pieces : List Bytes) :
    IsCutting (0 :: cutPoints 0 pieces) pieces.flatten.length where
  head := rfl
  ordered := cutPoints_ordered 0 pieces
  last := by rw [getLast?_cutPoints, zero_add]

end Bytes

/-! ## Copies -/

namespace Transform

open Bytes (ranges cutPoints IsCutting)

/-- Copies one range of the value after the other, and gives the buffers. With each of the ranges
stands whether its copy is asked to work in place. -/
def copyEach (v : Value) : List ((Int × Int) × Bool) → Action (List Value)
  | [] => return []
  | ((offset, length), inPlace) :: rest => do
    let ref ← (copy offset length).apply v inPlace
    let more ← copyEach v rest
    return .buffer ref :: more

section

variable {s s' : Store} {v : Value} {bs : Bytes} {offset length : Int} {inPlace : Bool} {ref : Nat}

theorem effect_copy (h : ¬ IsOutside offset length bs.length) (gs : List Random.Generator) :
    (copy offset length).effect bs gs = .ok (bs.range (offset, length), gs) := by
  unfold IsOutside at h
  rw [effect, if_neg h, Bytes.range]

theorem effect_copy_natCast {a b : Nat} (h : a + b ≤ bs.length) (gs : List Random.Generator) :
    (copy a b).effect bs gs = .ok ((bs.drop a).take b, gs) := by
  rw [effect_copy (by rintro (h | h | h) <;> omega), Bytes.range_natCast]

theorem outcome_copy (hv : s.Holds v bs) (h : ¬ IsOutside offset length bs.length) :
    ((copy offset length).apply v inPlace).outcome s
      = (.ok s.buffers.length, (s.add (bs.range (offset, length))).2) :=
  calc ((copy offset length).apply v inPlace).outcome s
      = (copy offset length).result v inPlace bs s := outcome_applyCopy hv.asBytes? offset length
    _ = _ := result_of_allocate rfl (effect_copy h s.generators)

/-- What is copied lies inside. -/
theorem not_isOutside_of_ok (hv : s.Holds v bs)
    (h : ((copy offset length).apply v inPlace).outcome s = (.ok ref, s')) :
    ¬ IsOutside offset length bs.length := by
  intro hout
  have hrefused : (copy offset length).effect bs s.generators
      = .error (.ofRange offset (offset + length) bs.length "copy") := by
    unfold IsOutside at hout
    rw [effect, if_pos hout]
  have hrun : ((copy offset length).apply v inPlace).outcome s
      = (copy offset length).result v inPlace bs s := outcome_applyCopy hv.asBytes? offset length
  rw [hrun, result_of_error hrefused] at h
  cases h

/-- **Copies one after the other do not disturb each other**, nor anything else that the store
holds. -/
theorem exists_copyEach {calls : List ((Int × Int) × Bool)} (hv : s.Holds v bs)
    (hinside : ∀ r ∈ calls.map (·.1), ¬ IsOutside r.1 r.2 bs.length) :
    ∃ pieces s', (copyEach v calls).outcome s = (.ok pieces, s') ∧
      List.Forall₂ s'.Holds pieces ((calls.map (·.1)).map bs.range) ∧
      ∀ w held, s.Holds w held → s'.Holds w held := by
  induction calls generalizing s with
  | nil => exact ⟨[], s, rfl, .nil, fun _ _ h => h⟩
  | cons call rest ih =>
    obtain ⟨⟨offset, length⟩, inPlace⟩ := call
    obtain ⟨hfirst, hrest⟩ := List.forall_mem_cons.1 hinside
    have hpiece := s.holds_add (bs.range (offset, length))
    -- the value is held as before behind the new buffer, and the new buffer behind the others to
    -- come
    obtain ⟨more, s', hmore, hheld, hkept⟩ := ih (hv.of_add (bs.range (offset, length))) hrest
    refine ⟨.buffer s.buffers.length :: more, s', ?_, .cons (hkept _ _ hpiece) hheld,
      fun w held h => hkept w held (h.of_add _)⟩
    simp [copyEach, outcome_copy hv hfirst, hmore]

/-! ## Joining -/

/-- Appends one value after the other by transforms, which are made of them. With each of the values
stands whether its transform is asked to work in place. -/
def appendEach : List (Value × Bool) → Value → Action Value
  | [], v => return v
  | (piece, inPlace) :: rest, v => do
    let t ← Action.reading fun contents => makeConcat contents piece
    let ref ← t.apply v inPlace
    appendEach rest (.buffer ref)

/-- The values can be joined to these bytes: all at once, or by appending them one after the other,
to nothing or to the first of them. -/
structure Joins (s : Store) (pieces : List Value) (bs : Bytes) : Prop where
  atOnce : ∃ ref s', (Routine.concat.call pieces).outcome s = (.ok (.buffer ref), s') ∧
    s'.Holds (.buffer ref) bs
  toNothing : ∀ (start : Value) (modes : List Bool), s.Holds start [] →
    modes.length = pieces.length →
    ∃ w s', (appendEach (pieces.zip modes) start).outcome s = (.ok w, s') ∧ s'.Holds w bs
  toFirst : ∀ (first : Value) (more : List Value) (modes : List Bool), pieces = first :: more →
    modes.length = more.length →
    ∃ w s', (appendEach (more.zip modes) first).outcome s = (.ok w, s') ∧ s'.Holds w bs

theorem makeConcat_of_holds (hv : s.Holds v bs) : makeConcat s.bytes v = .ok (concat bs) := by
  rw [makeConcat, present, Value.isNull_of_asBytes? hv.asBytes?,
    Value.parse_of_asBytes? "second" hv.asBytes?]
  rfl

/-- **What is appended one after the other comes in this order.** Each transform makes a new buffer,
so the values to come stay as they are. -/
theorem exists_appendEach {calls : List (Value × Bool)} {pieces : List Bytes} (hv : s.Holds v bs)
    (hpieces : List.Forall₂ s.Holds (calls.map (·.1)) pieces) :
    ∃ w s', (appendEach calls v).outcome s = (.ok w, s') ∧ s'.Holds w (bs ++ pieces.flatten) := by
  -- the value changes from one transform to the next; the invariant is what it holds so far
  induction calls generalizing s v bs pieces with
  | nil =>
    cases hpieces
    exact ⟨v, s, rfl, by simpa using hv⟩
  | cons call rest ih =>
    obtain ⟨piece, inPlace⟩ := call
    obtain ⟨head, tail, hhead, htail, rfl⟩ := List.forall₂_cons_left_iff.1 hpieces
    have happly : ((concat head).apply v inPlace).outcome s
        = (.ok s.buffers.length, (s.add (bs ++ head)).2) :=
      (outcome_concat hv.asBytes? head).trans (result_of_allocate rfl rfl)
    obtain ⟨w, s', hmore, hw⟩ := ih (s.holds_add (bs ++ head))
      (htail.imp fun _ _ h => h.of_add (bs ++ head))
    refine ⟨w, s', ?_, by rwa [List.flatten_cons, ← List.append_assoc]⟩
    simp [appendEach, makeConcat_of_holds hhead, happly, hmore]

theorem joined_of_forall₂ {pieces : List Value} {bss : List Bytes}
    (h : List.Forall₂ s.Holds pieces bss) : Value.joined s.bytes pieces = .ok bss.flatten := by
  induction h with
  | nil => rfl
  | cons hfirst _ ih =>
    rw [Value.joined_cons_of_asBytes? hfirst.asBytes?, ih]
    rfl

/-- **Byte strings can be joined.** -/
theorem joins_of_forall₂ {pieces : List Value} {bss : List Bytes}
    (h : List.Forall₂ s.Holds pieces bss) : Joins s pieces bss.flatten where
  atOnce := by
    refine ⟨s.buffers.length, _, ?_, s.holds_add bss.flatten⟩
    simp [Routine.call, Routine.parameters?, Routine.run, joined_of_forall₂ h]
  toNothing := by
    intro start modes hstart hlength
    have hcalls : List.Forall₂ s.Holds ((pieces.zip modes).map (·.1)) bss := by
      rwa [List.map_fst_zip hlength.ge]
    exact exists_appendEach hstart hcalls
  toFirst := by
    rintro first more modes rfl hlength
    obtain ⟨head, tail, hhead, htail, rfl⟩ := List.forall₂_cons_left_iff.1 h
    refine exists_appendEach hhead ?_
    rwa [List.map_fst_zip hlength.ge]

/-! ## Cutting and joining -/

theorem exists_copyEach_ranges {cuts : List Int} {modes : List Bool} (hv : s.Holds v bs)
    (hcuts : IsCutting cuts bs.length) (hlength : modes.length = (ranges cuts).length) :
    ∃ pieces s', (copyEach v ((ranges cuts).zip modes)).outcome s = (.ok pieces, s') ∧
      List.Forall₂ s'.Holds pieces ((ranges cuts).map bs.range) := by
  have hranges : ((ranges cuts).zip modes).map (·.1) = ranges cuts := List.map_fst_zip hlength.ge
  have hinside : ∀ r ∈ ((ranges cuts).zip modes).map (·.1), ¬ IsOutside r.1 r.2 bs.length := by
    rw [hranges]
    exact hcuts.flatten_ranges.2
  obtain ⟨pieces, s', hrun, hheld, -⟩ := exists_copyEach hv hinside
  exact ⟨pieces, s', hrun, hranges ▸ hheld⟩

/-- **Cutting and joining are inverse.** The ranges between cut points can be copied, and the copies
joined are the bytes. A copy of a copy is one copy, wherever the first of them may begin. And byte
strings that have been joined are got back as the copies of the ranges that they take, one behind
the other. All of this holds in place and not. -/
theorem cut_join_inverse (hv : s.Holds v bs) :
    (∀ (cuts : List Int) (modes : List Bool), IsCutting cuts bs.length →
      modes.length = (ranges cuts).length →
      ∃ pieces s', (copyEach v ((ranges cuts).zip modes)).outcome s = (.ok pieces, s') ∧
        Joins s' pieces bs) ∧
    (∀ (offset₁ length₁ offset₂ length₂ : Int) (inPlace₁ inPlace₂ : Bool) (ref₁ ref₂ : Nat)
      (s₁ s₂ : Store), ((copy offset₁ length₁).apply v inPlace₁).outcome s = (.ok ref₁, s₁) →
      ((copy offset₂ length₂).apply (.buffer ref₁) inPlace₂).outcome s₁ = (.ok ref₂, s₂) →
      AlwaysMakes [copy (offset₁ + offset₂) length₂] s v (s₂.bytes ref₂)) ∧
    ∀ (s' : Store) (pieces : List Value) (bss : List Bytes), List.Forall₂ s'.Holds pieces bss →
      Joins s' pieces bss.flatten ∧ IsCutting (0 :: cutPoints 0 bss) bss.flatten.length ∧
      ∀ (s'' : Store) (whole : Value) (modes : List Bool), s''.Holds whole bss.flatten →
        modes.length = bss.length →
        ∃ copies s₁, (copyEach whole ((ranges (0 :: cutPoints 0 bss)).zip modes)).outcome s''
            = (.ok copies, s₁) ∧
          List.Forall₂ s₁.Holds copies bss := by
  refine ⟨fun cuts modes hcuts hlength => ?_, ?_, fun s' pieces bss hpieces =>
    ⟨joins_of_forall₂ hpieces,
    Bytes.isCutting_cutPoints bss, fun s'' whole modes hwhole hlength => ?_⟩⟩
  · obtain ⟨pieces, s', hrun, hheld⟩ := exists_copyEach_ranges hv hcuts hlength
    refine ⟨pieces, s', hrun, ?_⟩
    have hjoins := joins_of_forall₂ hheld
    rwa [hcuts.flatten_ranges.1] at hjoins
  · intro offset₁ length₁ offset₂ length₂ inPlace₁ inPlace₂ ref₁ ref₂ s₁ s₂ hfirst hsecond
    have hinside₁ := not_isOutside_of_ok hv hfirst
    rw [outcome_copy hv hinside₁] at hfirst
    cases hfirst
    have hheld := s.holds_add (bs.range (offset₁, length₁))
    have hinside₂ := not_isOutside_of_ok hheld hsecond
    rw [outcome_copy hheld hinside₂] at hsecond
    cases hsecond
    obtain ⟨hinside, hrange⟩ := Bytes.range_range hinside₁ hinside₂
    rw [Store.bytes_add_length, hrange]
    exact alwaysMakes_of_effects (by simp [IsOwn, kind?]) rfl hv
      (effectInTurn_cons (effect_copy hinside s.generators))
  · have hranges := Bytes.map_ranges_cutPoints [] bss
    rw [List.nil_append, List.length_nil, Nat.cast_zero] at hranges
    have hcalls : modes.length = (ranges (0 :: cutPoints 0 bss)).length := by
      rw [Bytes.length_ranges_cutPoints, hlength]
    obtain ⟨copies, s₁, hrun, hheld⟩ :=
      exists_copyEach_ranges hwhole (Bytes.isCutting_cutPoints bss) hcalls
    exact ⟨copies, s₁, hrun, hranges ▸ hheld⟩

end

/-- Three bytes are cut into none, two and one; and the last of the last two is the last of the
three. -/
theorem cut_join_inverse_three :
    (∃ pieces s', (copyEach (.buffer 0) ((ranges [0, 0, 2, 3]).zip [true, false, true])).outcome
          ⟨[[1, 2, 3]], [], []⟩ = (.ok pieces, s') ∧ Joins s' pieces [1, 2, 3]) ∧
      AlwaysMakes [copy 2 1] ⟨[[1, 2, 3]], [], []⟩ (.buffer 0) [3] ∧
      ∃ copies s₁, (copyEach (.bytes [7, 8, 9])
        ((ranges [0, 1, 1, 3]).zip [false, true, true])).outcome
          .empty = (.ok copies, s₁) ∧
        List.Forall₂ s₁.Holds copies [[7], [], [8, 9]] := by
  have hheld : Store.Holds ⟨[[1, 2, 3]], [], []⟩ (.buffer 0) [1, 2, 3] :=
    Store.holds_buffer (by decide) rfl
  have hwhole := Store.empty.holds_bytes [7, 8, 9]
  have hpieces : List.Forall₂ Store.empty.Holds [.bytes [7], .bytes [], .bytes [8, 9]]
      [[7], [], [8, 9]] :=
    .cons (Store.holds_bytes _ _)
      (.cons (Store.holds_bytes _ _) (.cons (Store.holds_bytes _ _) .nil))
  obtain ⟨hcut, htwice, hback⟩ := cut_join_inverse hheld
  refine ⟨hcut [0, 0, 2, 3] _ ⟨rfl, by decide, rfl⟩ rfl, ?_, ?_⟩
  · exact htwice 1 2 1 1 true false _ _ _ _ rfl rfl
  · exact (hback .empty _ _ hpieces).2.2 .empty _ _ hwhole rfl

end Transform

end Octets
