import Mathlib.Data.List.Forall2
import Octets.Proofs.Text.Hex
import Octets.Source

/-!
# What parses as bytes

A text is read as pairs of digits, a list or a tuple item by item. Each of them is accepted exactly
if there are bytes that it stands for, and refused as unusable otherwise.

* `itemBytes_eq_ok_iff` — every item is a whole number that fits into a byte; the induction is on
  the items.
* `decides_mapError` — a reader whose faults are replaced accepts what it accepted before.
* `parse_language` — both languages, and that all forms of a byte string (`IsForm`) parse to it.
-/

namespace Octets

open Text (isBlank)

namespace Value

variable {contents : Nat → Bytes} {v : Value} {b : UInt8} {bs : Bytes} {items : List Value}

/-! ## Items -/

/-- The value is a whole number from 0 to 255, or a truth value, and this byte. -/
inductive IsByte : Value → UInt8 → Prop
  | int (b : UInt8) : IsByte (.int b.toNat) b
  | false : IsByte (.bool Bool.false) 0
  | true : IsByte (.bool Bool.true) 1

theorem isByte_of_itemByte (h : v.itemByte = .ok b) : v.IsByte b := by
  cases v with
  | int n =>
    simp only [itemByte, asWhole?] at h
    split at h
    · rename_i hn
      obtain rfl := Except.ok.inj h
      have hbyte : ((UInt8.ofNat n.toNat).toNat : Int) = n := by
        rw [UInt8.toNat_ofNat']
        omega
      have hint := IsByte.int (UInt8.ofNat n.toNat)
      rwa [hbyte] at hint
    · cases h
  | bool flag =>
    cases flag with
    | false =>
      cases h
      exact .false
    | true =>
      cases h
      exact .true
  | _ => cases h

theorem itemByte_of_isByte (h : v.IsByte b) : v.itemByte = .ok b := by
  cases h with
  | int b =>
    have hb := b.toNat_lt
    simp only [itemByte, asWhole?]
    rw [if_pos ⟨by omega, by omega⟩, Int.toNat_natCast, UInt8.ofNat_toNat]
  | false => rfl
  | true => rfl

/-- **Items are bytes exactly if each of them is one.** -/
theorem itemBytes_eq_ok_iff : itemBytes items = .ok bs ↔ List.Forall₂ IsByte items bs := by
  induction items generalizing bs with
  | nil =>
    constructor
    · intro h
      cases h
      exact .nil
    · intro h
      cases h
      rfl
  | cons v rest ih =>
    constructor
    · intro h
      cases hv : v.itemByte with
      | error flaw =>
        rw [itemBytes, hv] at h
        cases h
      | ok b =>
        cases hrest : itemBytes rest with
        | error flaw =>
          rw [itemBytes, hv, hrest] at h
          cases h
        | ok bs' =>
          rw [itemBytes, hv, hrest] at h
          obtain rfl := Except.ok.inj h
          exact .cons (isByte_of_itemByte hv) (ih.1 hrest)
    · intro h
      cases h with
      | cons hv hrest =>
        rw [itemBytes, itemByte_of_isByte hv, ih.2 hrest]
        rfl

/-! ## Parsing -/

/-- A reader whose faults are replaced accepts what it accepted before. -/
theorem decides_mapError {flaw : Type} {r : Except flaw Bytes} {P : Bytes → Prop}
    (hr : ∀ bs, r = .ok bs ↔ P bs) (fault : flaw → Fault) :
    (∀ bs, r.mapError fault = .ok bs ↔ P bs) ∧
      ((¬ ∃ bs, P bs) → ∃ e, r.mapError fault = .error (fault e)) := by
  cases r with
  | ok out =>
    refine ⟨fun bs => ?_, fun hnone => absurd ⟨out, (hr out).1 rfl⟩ hnone⟩
    rw [← hr bs]
    constructor
    · intro h
      cases h
      rfl
    · intro h
      cases h
      rfl
  | error e =>
    refine ⟨fun bs => ?_, fun _ => ⟨e, rfl⟩⟩
    rw [← hr bs]
    constructor
    · intro h
      cases h
    · intro h
      cases h

theorem parse_of_asText? (name : String) {s : String} (h : v.asText? = some s) :
    v.parse contents name
      = (Text.Hex.read s.toList).mapError fun pos => .unusable (.badHex name pos) none := by
  unfold parse
  rw [h]

theorem parse_of_asBytes? (name : String) (h : v.asBytes? contents = some bs) :
    v.parse contents name = .ok bs := by
  unfold parse
  cases v with
  | bytes _ | view _ | buffer _ =>
    cases h
    rfl
  | _ => cases h

theorem parse_of_opened (name : String) (h : v.opened = .list items ∨ v.opened = .tuple items) :
    v.parse contents name
      = (itemBytes items).mapError fun flaw => .unusable (.badItems name flaw) none := by
  have htext : v.asText? = none := by
    cases v with
    | text _ | mode _ | direction _ => rcases h with h | h <;> cases h
    | _ => rfl
  have hbytes : v.asBytes? contents = none := by
    cases v with
    | bytes _ | view _ | buffer _ => rcases h with h | h <;> cases h
    | _ => rfl
  unfold parse
  rw [htext, hbytes]
  rcases h with h | h <;> rw [h]

/-! ## Forms -/

/-- The value is one of the forms in which the bytes may be given. -/
inductive IsForm (contents : Nat → Bytes) : Value → Bytes → Prop
  | bytes (bs : Bytes) : IsForm contents (.bytes bs) bs
  | view (bs : Bytes) : IsForm contents (.view bs) bs
  | buffer (ref : Nat) : IsForm contents (.buffer ref) (contents ref)
  | list {items : List Value} {bs : Bytes} (h : List.Forall₂ IsByte items bs) :
      IsForm contents (.list items) bs
  | tuple {items : List Value} {bs : Bytes} (h : List.Forall₂ IsByte items bs) :
      IsForm contents (.tuple items) bs
  /-- Pairs of digits with blanks between them, behind a mark or not, with blanks at both ends. -/
  | text {lead mark pairs trail : List Char} {bs : Bytes}
      (hlead : ∀ c ∈ lead, isBlank c = Bool.true) (hmark : mark ∈ [[], ['0', 'x'], ['0', 'X']])
      (hpairs : Text.Hex.Spelled pairs bs) (htrail : ∀ c ∈ trail, isBlank c = Bool.true) :
      IsForm contents (.text (String.ofList (lead ++ (mark ++ pairs) ++ trail))) bs

/-- Every byte string has a form as text. -/
theorem isForm_encodeString (contents : Nat → Bytes) (bs : Bytes) :
    IsForm contents (.text (Text.Hex.encodeString bs)) bs := by
  have hform : IsForm contents
      (.text (String.ofList ([] ++ ([] ++ Text.Hex.encode bs) ++ []))) bs :=
    .text (by simp) (by simp) (Text.Hex.spelled_encode bs) (by simp)
  rwa [List.append_nil] at hform

/-- **All forms parse to the bytes.** -/
theorem parse_of_isForm (name : String) (h : v.IsForm contents bs) :
    v.parse contents name = .ok bs := by
  cases h with
  | bytes | view | buffer => exact parse_of_asBytes? name rfl
  | list h =>
    rw [parse_of_opened name (.inl rfl), itemBytes_eq_ok_iff.2 h]
    rfl
  | tuple h =>
    rw [parse_of_opened name (.inr rfl), itemBytes_eq_ok_iff.2 h]
    rfl
  | text hlead hmark hpairs htrail =>
    rw [parse_of_asText? name rfl, String.toList_ofList,
      Text.Hex.read_eq_ok_iff.2 (Text.Hex.denotes_layout hlead htrail hmark hpairs)]
    rfl

/-- **The parser accepts exactly its language.** A text is accepted if its pairs of digits denote
bytes, behind at most one mark; a list or a tuple, even one that holds itself, if each item is a
byte. All others of them are refused as unusable. So all forms of a byte string parse to it, and a
result parses to itself. -/
theorem parse_language (contents : Nat → Bytes) (name : String) :
    (∀ (v : Value) (s : String), v.asText? = some s →
      (∀ bs, v.parse contents name = .ok bs ↔ Text.Hex.Denotes s.toList bs) ∧
      ((¬ ∃ bs, Text.Hex.Denotes s.toList bs) →
        ∃ pos, v.parse contents name = .error (.unusable (.badHex name pos) none))) ∧
    (∀ (v : Value) (items : List Value), v.opened = .list items ∨ v.opened = .tuple items →
      (∀ bs, v.parse contents name = .ok bs ↔ List.Forall₂ IsByte items bs) ∧
      ((¬ ∃ bs, List.Forall₂ IsByte items bs) →
        ∃ flaw, v.parse contents name = .error (.unusable (.badItems name flaw) none))) ∧
    (∀ bs, IsForm contents (.text (Text.Hex.encodeString bs)) bs) ∧
    (∀ (v : Value) (bs : Bytes), v.IsForm contents bs → v.parse contents name = .ok bs) ∧
    ∀ (v : Value) (bs : Bytes), v.parse contents name = .ok bs →
      (Value.bytes bs).parse contents name = .ok bs := by
  refine ⟨?_, ?_, isForm_encodeString contents, fun _ _ => parse_of_isForm name, ?_⟩
  · intro v s hv
    rw [parse_of_asText? name hv]
    exact decides_mapError (fun _ => Text.Hex.read_eq_ok_iff) _
  · intro v items hv
    rw [parse_of_opened name hv]
    exact decides_mapError (fun _ => itemBytes_eq_ok_iff) _
  · intro v bs _
    exact parse_of_isForm name (.bytes bs)

/-- One mark is cut off behind the blanks; a second one is no pair of digits. -/
theorem parse_language_marks :
    (Value.text " 0X0a Ff\t").parse (fun _ => []) "second" = .ok [10, 255] ∧
      ∃ pos, (Value.text "0x0x0a").parse (fun _ => []) "second"
        = .error (.unusable (.badHex "second" pos) none) := by
  obtain ⟨htext, -⟩ := parse_language (fun _ => []) "second"
  constructor
  · exact ((htext (.text " 0X0a Ff\t") _ rfl).1 _).2 (Text.Hex.read_eq_ok_iff.1 rfl)
  · refine (htext (.text "0x0x0a") _ rfl).2 ?_
    rintro ⟨bs, hdenotes⟩
    have hread : Text.Hex.read "0x0x0a".toList = .error 1 := rfl
    rw [Text.Hex.read_eq_ok_iff.2 hdenotes] at hread
    cases hread

end Value

end Octets
