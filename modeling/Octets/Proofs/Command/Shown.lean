import Octets.Command.Run
import Octets.Proofs.Text.Hex

/-!
# What can be shown

A line is shown without the sequences that style it, and only if it holds no half of a pair. The
sequences are of ASCII characters, so taking them out takes no half out.

* `mem_plain_iff` — a half is in a text just if it is in the text without its sequences.
* `halves?_eq_none_iff` — a text has an encoding just if it holds no half.
* `shown_hex` — digits are shown as they are.
* `exists_shown_notice_iff` — that the output is written can be said just if its path holds no half.
-/

namespace Octets

namespace Text

/-! ## Halves of pairs -/

theorem isHeld_eq_false {c : Char} (h : c.toNat < 0x80) : Units.isHeld c = false := by
  have hzero : c.toNat - Units.distance = 0 :=
    Nat.sub_eq_zero_of_le (by unfold Units.distance; omega)
  rw [Units.isHeld, hzero]
  rfl

theorem Utf8.halves?_eq_none_iff {s : List Char} :
    Utf8.halves? s = none ↔ ∀ c ∈ s, Units.isHeld c = false := by
  have hrow : (s.dropWhile fun c => !Units.isHeld c).takeWhile Units.isHeld = [] ↔
      ∀ c ∈ s, Units.isHeld c = false := by
    induction s with
    | nil => simp
    | cons c rest ih => cases hc : Units.isHeld c <;> simp [hc, ih]
  rw [← hrow, halves?, halvesFrom?]
  cases (s.dropWhile fun c => !Units.isHeld c).takeWhile Units.isHeld <;> simp

/-! ## Sequences that style a text -/

namespace Styling

theorem lt_of_isParameter {c : Char} (h : isParameter c = true) : c.toNat < 0x80 := by
  unfold isParameter at h
  simp only [Bool.or_eq_true, beq_iff_eq] at h
  rcases h with (hdigit | rfl) | rfl
  · simp only [Char.isDigit, Bool.and_eq_true, decide_eq_true_eq] at hdigit
    have hle := UInt32.le_iff_toNat_le.1 hdigit.2
    exact Nat.lt_of_le_of_lt hle (by decide)
  · decide
  · decide

theorem lt_of_isAlpha {c : Char} (h : c.isAlpha = true) : c.toNat < 0x80 := by
  rcases Bool.or_eq_true_iff.1 h with hupper | hlower
  · have hle : c.val ≤ 'Z'.val := (of_decide_eq_true hupper).2
    exact Nat.lt_of_le_of_lt (UInt32.le_iff_toNat_le.1 hle) (by decide)
  · have hle : c.val ≤ 'z'.val := of_decide_eq_true (Bool.and_eq_true_iff.1 hlower).2
    exact Nat.lt_of_le_of_lt (UInt32.le_iff_toNat_le.1 hle) (by decide)

/-- A sequence is of ASCII characters. -/
theorem exists_of_behind? {c : Char} {rest behind : List Char} (h : behind? c rest = some behind) :
    ∃ sequence, c :: rest = sequence ++ behind ∧ ∀ d ∈ sequence, d.toNat < 0x80 := by
  unfold behind? at h
  split at h
  · rename_i more
    split at h
    · rename_i letter behind' hdrop
      split at h
      · rename_i hletter
        obtain rfl := Option.some.inj h
        refine ⟨'\x1b' :: '[' :: more.takeWhile isParameter ++ [letter], ?_, ?_⟩
        · rw [List.append_assoc, List.singleton_append, ← hdrop]
          simp
        · intro d hd
          simp only [List.cons_append, List.mem_cons, List.mem_append, List.not_mem_nil, or_false]
            at hd
          rcases hd with rfl | rfl | hd | rfl
          · decide
          · decide
          · exact lt_of_isParameter (List.mem_takeWhile_imp hd)
          · exact lt_of_isAlpha hletter
      · cases h
    · cases h
  · cases h

/-- **No half of a pair is taken out of a text.** -/
theorem mem_plain_iff {s : List Char} {d : Char} (hd : Units.isHeld d = true) :
    d ∈ plain s ↔ d ∈ s := by
  fun_induction plain s with
  | case1 => rfl
  | case2 c rest behind hbehind ih =>
    obtain ⟨sequence, heq, hascii⟩ := exists_of_behind? hbehind
    have hnot : d ∉ sequence := by
      intro hmem
      rw [isHeld_eq_false (hascii d hmem)] at hd
      cases hd
    rw [ih, heq, List.mem_append]
    exact (or_iff_right hnot).symm
  | case3 c rest _ ih => rw [List.mem_cons, List.mem_cons, ih]

end Styling

/-! ## Digits -/

theorem Hex.exists_isDigit_of_mem_encode {bs : Bytes} {c : Char} (h : c ∈ Hex.encode bs) :
    ∃ n, Hex.IsDigit c n := by
  obtain ⟨b, -, hc⟩ := List.mem_flatMap.1 h
  have hb := b.toNat_lt
  simp only [Hex.encodeByte, List.mem_cons, List.not_mem_nil, or_false] at hc
  rcases hc with rfl | rfl
  · exact ⟨_, Hex.isDigit_digit (by omega)⟩
  · exact ⟨_, Hex.isDigit_digit (by omega)⟩

end Text

namespace Command.Job

/-! ## Lines -/

variable {job : Job} {out : Bytes} {text : String}

/-- The text holds half of a pair. -/
def HasHalf (text : String) : Prop := ∃ c ∈ text.toList, Text.Units.isHeld c = true

/-- A text is shown just if it holds no half of a pair. -/
theorem exists_shown_iff : (∃ line, shown text = .ok line) ↔ ¬ HasHalf text := by
  have hplain : (∀ c ∈ Text.Styling.plain (text ++ "\n").toList, Text.Units.isHeld c = false) ↔
      ¬ HasHalf text := by
    rw [HasHalf, not_exists]
    refine forall_congr' fun c => ?_
    cases hc : Text.Units.isHeld c with
    | false => simp
    | true =>
      have hline : c ≠ '\n' := by
        rintro rfl
        rw [Text.isHeld_eq_false (by decide)] at hc
        cases hc
      rw [Text.Styling.mem_plain_iff hc]
      simp [hline]
  rw [← hplain, ← Text.Utf8.halves?_eq_none_iff, shown]
  cases Text.Utf8.halves? (Text.Styling.plain (text ++ "\n").toList) <;> simp

/-- A text that cannot be shown has no encoding. -/
theorem exists_of_shown_error {fault : Fault} (h : shown text = .error fault) :
    HasHalf text ∧ ∃ cause, fault = .badValue (.halves cause) := by
  refine ⟨Classical.not_not.1 fun hnone => ?_, ?_⟩
  · obtain ⟨line, hline⟩ := exists_shown_iff.2 hnone
    rw [h] at hline
    cases hline
  · unfold shown at h
    dsimp only at h
    split at h
    · rename_i cause _
      exact ⟨cause, (Except.error.inj h).symm⟩
    · cases h

/-- **Digits are shown as they are.** -/
theorem shown_hex (out : Bytes) :
    shown (Text.Hex.encodeString out) = .ok (Text.Hex.encodeString out ++ "\n") := by
  have hrange : ∀ c ∈ (Text.Hex.encodeString out ++ "\n").toList, c ≠ '\x1b' ∧ c.toNat < 0x80 := by
    intro c hc
    simp only [Text.Hex.encodeString, String.toList_append, String.toList_ofList, List.mem_append]
      at hc
    rcases hc with hc | hc
    · obtain ⟨n, hdigit⟩ := Text.Hex.exists_isDigit_of_mem_encode hc
      have hascii := hdigit.range
      refine ⟨?_, by omega⟩
      rintro rfl
      rw [show '\x1b'.toNat = 0x1b from rfl] at hascii
      omega
    · obtain rfl : c = '\n' := by simpa using hc
      decide
  have hplain : Text.Styling.plain (Text.Hex.encodeString out ++ "\n").toList
      = (Text.Hex.encodeString out ++ "\n").toList :=
    Text.Styling.plain_eq_self fun hmem => (hrange _ hmem).1 rfl
  have hnone : Text.Utf8.halves? (Text.Hex.encodeString out ++ "\n").toList = none :=
    Text.Utf8.halves?_eq_none_iff.2 fun c hc => Text.isHeld_eq_false (hrange c hc).2
  rw [shown]
  simp only [hplain, hnone, String.ofList_toList]

/-- The output is named in what is said of it, and nothing else in it can hold half of a pair. -/
theorem hasHalf_notice_iff : HasHalf (job.notice out) ↔ HasHalf job.outputPath := by
  have hwrote : Text.Utf8.halves? "Wrote ".toList = none := by decide +kernel
  have hbytes : Text.Utf8.halves? " bytes to ".toList = none := by decide +kernel
  have hlength : Text.Utf8.halves? (toString out.length).toList = none := by
    refine Text.Utf8.halves?_eq_none_iff.2 fun c hmem => Text.isHeld_eq_false ?_
    rw [show toString out.length = out.length.repr from rfl, Nat.toList_repr] at hmem
    have hdigit := Nat.isDigit_of_mem_toDigits (by decide) (by decide) hmem
    exact Text.Styling.lt_of_isParameter (by simp [Text.Styling.isParameter, hdigit])
  rw [Text.Utf8.halves?_eq_none_iff] at hwrote hbytes hlength
  refine exists_congr fun c => ?_
  simp only [notice, String.toList_append, List.mem_append, or_and_right]
  refine or_iff_right ?_
  rintro ((⟨hmem, hheld⟩ | ⟨hmem, hheld⟩) | ⟨hmem, hheld⟩)
  · exact absurd hheld (Bool.eq_false_iff.1 (hwrote c hmem))
  · exact absurd hheld (Bool.eq_false_iff.1 (hlength c hmem))
  · exact absurd hheld (Bool.eq_false_iff.1 (hbytes c hmem))

/-- **That the output is written can be said just if its path holds no half of a pair.** -/
theorem exists_shown_notice_iff :
    (∃ line, shown (job.notice out) = .ok line) ↔ ¬ HasHalf job.outputPath :=
  exists_shown_iff.trans (not_congr hasHalf_notice_iff)

end Command.Job

end Octets
