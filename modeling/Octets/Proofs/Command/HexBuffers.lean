import Octets.Proofs.Command.Merging
import Octets.Proofs.Value.Parse

/-!
# Bytes on the command line

Bytes may be given in an option as hexadecimal digits. Behind the mark `0x` such a text is no JSON
document, so it reaches the parameter as it is and is read as the bytes. Without the mark it may be
a number, which is refused as bytes; it is never read as other ones.

* `Text.Hex.spelled_of_isWriting` — digits of bytes are read in any letter case.
* `carries_of_isForm` — a form of bytes carries them, if it is no document.
* `carries_mark`, `carries_or_isNumber` — digits behind a mark and without one.
* `hex_buffers` — the same for all bytes, and for those that a job shows.
-/

namespace Octets

/-! ## Letter case -/

namespace Text.Hex

theorem toNat_toLower (c : Char) :
    c.toLower.toNat = if 0x41 ≤ c.toNat ∧ c.toNat ≤ 0x5a then c.toNat + 0x20 else c.toNat := by
  have hfirst : ('A'.val).toNat = 0x41 := rfl
  have hlast : ('Z'.val).toNat = 0x5a := rfl
  have hshift : ('a'.val - 'A'.val).toNat = 0x20 := rfl
  simp only [Char.toLower, Char.toNat, ge_iff_le, UInt32.le_iff_toNat_le, hfirst, hlast]
  split
  · rw [UInt32.toNat_add, hshift]
    omega
  · rfl

/-- A digit has its value in either case. -/
theorem value?_toLower (c : Char) : value? c.toLower = value? c := by
  have hlower := toNat_toLower c
  simp only [value?, Bool.and_eq_true, decide_eq_true_eq, hlower]
  split_ifs <;> first | rfl | omega

/-- The text is that of the digits of the bytes, in any letter case. -/
def IsWriting (digits : List Char) (bs : Bytes) : Prop := digits.map Char.toLower = encode bs

variable {digits : List Char} {bs : Bytes}

theorem value?_of_toLower_eq {c : Char} {n : Nat} (hn : n < 16) (h : c.toLower = digit n) :
    value? c = some n := by
  rw [← value?_toLower, h, value?_digit hn]

/-- **Digits of bytes are read in any letter case.** -/
theorem spelled_of_isWriting (h : IsWriting digits bs) :
    Spelled digits bs ∧ ∀ d ∈ digits, (value? d).isSome := by
  induction bs generalizing digits with
  | nil =>
    obtain rfl := List.map_eq_nil_iff.1 h
    exact ⟨.nil, nofun⟩
  | cons b rest ih =>
    have hb := b.toNat_lt
    obtain ⟨c, tail, rfl, hc, htail⟩ := List.map_eq_cons_iff.1 h
    obtain ⟨d, more, rfl, hd, hmore⟩ := List.map_eq_cons_iff.1 htail
    have hc := value?_of_toLower_eq (by omega) hc
    have hd := value?_of_toLower_eq (by omega) hd
    obtain ⟨hspelled, hall⟩ := ih hmore
    refine ⟨.pair (isDigit_of_value? hc) (isDigit_of_value? hd) hspelled, ?_⟩
    refine List.forall_mem_cons.2 ⟨?_, List.forall_mem_cons.2 ⟨?_, hall⟩⟩
    · rw [hc]
      rfl
    · rw [hd]
      rfl

theorem isWriting_encode (bs : Bytes) : IsWriting (encode bs) bs := by
  have hdigit : ∀ n ∈ List.range 16, (digit n).toLower = digit n := by decide
  induction bs with
  | nil => rfl
  | cons b rest ih =>
    have hb := b.toNat_lt
    have hhigh := hdigit (b.toNat / 16) (List.mem_range.2 (by omega))
    have hlow := hdigit (b.toNat % 16) (List.mem_range.2 (by omega))
    show [digit (b.toNat / 16), digit (b.toNat % 16)].map Char.toLower ++
      (encode rest).map Char.toLower = _
    rw [ih]
    simp only [List.map_cons, List.map_nil, hhigh, hlow]
    rfl

end Text.Hex

/-! ## Values of options -/

namespace Assignment

variable {name key raw : String} {digits : List Char} {bs : Bytes} {v : Value}

/-- The name and the key can stand before the value of an option. -/
structure IsTarget (name key : String) : Prop where
  name_ne : name ≠ ""
  key_ne : key ≠ ""
  dot : '.' ∉ name.toList
  equals : '=' ∉ name.toList
  equals_key : '=' ∉ key.toList

/-- The option of the name and the key that is written with this value is read, and has the
value. -/
def IsReadAs (name key raw : String) (v : Value) : Prop :=
  ofText? (name ++ "." ++ key ++ "=" ++ raw) = some ⟨name, key, raw⟩ ∧
    (Assignment.mk name key raw).value = .ok v

/-- The option gives the bytes to a parameter that takes bytes. -/
def Carries (name key raw : String) (bs : Bytes) : Prop :=
  ∃ v, IsReadAs name key raw v ∧ ∀ contents field, v.parse contents field = .ok bs

theorem IsTarget.ofText?_eq (h : IsTarget name key) (raw : String) :
    ofText? (name ++ "." ++ key ++ "=" ++ raw) = some ⟨name, key, raw⟩ := by
  have hequals : '=' ∉ name.toList ++ '.' :: key.toList := by
    simpa using ⟨h.equals, h.equals_key⟩
  exact ofText?_eq_some_iff.2 ⟨rfl, h.name_ne, h.key_ne, h.dot, hequals⟩

theorem isReadAs_of_ok (h : IsTarget name key) (hread : Json.read raw.toList = .ok v) :
    IsReadAs name key raw v := by
  refine ⟨h.ofText?_eq raw, ?_⟩
  rw [value, hread]

/-- What is no document is the text that it is, unless it is too deep for one. -/
theorem isReadAs_of_error {fault : Json.Fault} (h : IsTarget name key)
    (hread : Json.read raw.toList = .error fault) (hflat : ∀ nest, fault ≠ .tooDeep nest) :
    IsReadAs name key raw (.text raw) := by
  refine ⟨h.ofText?_eq raw, ?_⟩
  rw [value, hread]
  cases fault with
  | tooDeep nest => exact absurd rfl (hflat nest)
  | flaw => rfl
  | longInteger => rfl

/-- **A form of bytes carries them, if it is no document.** -/
theorem carries_of_isForm {fault : Json.Fault} (h : IsTarget name key)
    (hread : Json.read raw.toList = .error fault) (hflat : ∀ nest, fault ≠ .tooDeep nest)
    (hform : ∀ contents, Value.IsForm contents (.text raw) bs) : Carries name key raw bs :=
  ⟨_, isReadAs_of_error h hread hflat, fun contents field =>
    Value.parse_of_isForm field (hform contents)⟩

/-- **Digits behind a mark carry the bytes**, whatever blanks end them. -/
theorem carries_mark (h : IsTarget name key) (hdigits : Text.Hex.IsWriting digits bs)
    {text : String} {trail : List Char} (htext : text.toList = digits ++ trail)
    (htrail : ∀ c ∈ trail, Text.isBlank c = true) : Carries name key ("0x" ++ text) bs := by
  have hlayout : "0x" ++ text = String.ofList ([] ++ (['0', 'x'] ++ digits) ++ trail) := by
    rw [← String.toList_inj]
    simp [htext]
  obtain ⟨fault, hread, hflat⟩ := Json.read_mark (Or.inl rfl) (digits ++ trail)
  rw [hlayout]
  refine carries_of_isForm h (by rwa [String.toList_ofList]) hflat fun contents => ?_
  exact .text nofun (List.mem_cons_of_mem _ List.mem_cons_self)
    (Text.Hex.spelled_of_isWriting hdigits).1 htrail

theorem parse_of_isNumber (h : Json.IsNumber v) (contents : Nat → Bytes) (field : String) :
    v.parse contents field = .error (.unusable (.notBuffer field v.kind) none) := by
  cases h <;> rfl

/-- **Digits without a mark carry the bytes, or are read as a number.** -/
theorem carries_or_isNumber (h : IsTarget name key) (hdigits : Text.Hex.IsWriting digits bs) :
    Carries name key (String.ofList digits) bs ∨
      ∃ v, IsReadAs name key (String.ofList digits) v ∧ Json.IsNumber v := by
  obtain ⟨hspelled, hall⟩ := Text.Hex.spelled_of_isWriting hdigits
  rcases Json.read_digits hall with ⟨v, hread, hv⟩ | ⟨fault, hread, hflat⟩
  · exact Or.inr ⟨v, isReadAs_of_ok h (by rwa [String.toList_ofList]), hv⟩
  · refine Or.inl (carries_of_isForm h (by rwa [String.toList_ofList]) hflat fun contents => ?_)
    have hform : Value.IsForm contents (.text (String.ofList ([] ++ ([] ++ digits) ++ []))) bs :=
      .text nofun List.mem_cons_self hspelled nofun
    rwa [List.append_nil] at hform

end Assignment

/-! ## Results that are shown -/

namespace Command

open Assignment (IsTarget IsReadAs Carries)

/-- **Bytes survive the command line as digits.** Behind a mark, the digits of any bytes are read as
these bytes. Without one they are read as the bytes or are refused, and refused only if they are a
number. In particular the text that a job shows is read behind a mark as the result of the job, as
it stands or without the line feed at its end. -/
theorem hex_buffers {name key : String} (h : IsTarget name key) :
    (∀ (bs : Bytes) (digits : List Char), Text.Hex.IsWriting digits bs →
      Carries name key ("0x" ++ String.ofList digits) bs ∧
        (Carries name key (String.ofList digits) bs ∨
          ∃ v, IsReadAs name key (String.ofList digits) v ∧ Json.IsNumber v ∧
            ∀ contents field,
              v.parse contents field = .error (.unusable (.notBuffer field v.kind) none))) ∧
    ∀ (job : Job) (w w' : World) (content : Bytes) (text : String), w.logging.IsFree Job.owner →
      w.store = .empty → w.files.read job.input = .ok content → job.asHex = true →
        job.perform w = (.ok text, w') →
          ∃ config steps out, job.Gives w.files config steps content out ∧
            text = Text.Hex.encodeString out ++ "\n" ∧ Carries name key ("0x" ++ text) out ∧
              Carries name key ("0x" ++ Text.Hex.encodeString out) out := by
  have hmark : ∀ {bs digits}, Text.Hex.IsWriting digits bs →
      Carries name key ("0x" ++ String.ofList digits) bs := by
    intro bs digits hdigits
    have htext : (String.ofList digits).toList = digits ++ [] := by
      rw [String.toList_ofList, List.append_nil]
    exact Assignment.carries_mark h hdigits htext nofun
  refine ⟨fun bs digits hdigits => ⟨hmark hdigits, ?_⟩, ?_⟩
  · refine (Assignment.carries_or_isNumber h hdigits).imp_right ?_
    rintro ⟨v, hread, hv⟩
    exact ⟨v, hread, hv, Assignment.parse_of_isNumber hv⟩
  · intro job w w' content text hfree hstore hinput hhex hperform
    obtain ⟨config, steps, out, hgives, hout⟩ := Job.gives_of_perform hfree hstore hinput hperform
    rw [Job.GivesOut, if_pos hhex] at hout
    have hwriting := Text.Hex.isWriting_encode out
    have htext : text.toList = Text.Hex.encode out ++ ['\n'] := by
      rw [hout.1]
      simp [Text.Hex.encodeString]
    have hshown := Assignment.carries_mark h hwriting htext (List.forall_mem_singleton.2 rfl)
    exact ⟨config, steps, out, hgives, hout.1, hshown, hmark hwriting⟩

/-- A job that complements a file, and shows the result. -/
def hexJob : Job := ⟨"in.bin", none, none, ["not"], [], true, none, none⟩

/-- The digits of one byte are a number and are refused, but not behind a mark; and what a job shows
is read as its result. -/
theorem hex_buffers_sample :
    Carries "concat" "second" "0x10" [0x10] ∧
      (∃ v, IsReadAs "concat" "second" "10" v ∧
        ∀ contents field,
          v.parse contents field = .error (.unusable (.notBuffer field v.kind) none)) ∧
      Carries "concat" "second" "0xfefdfc\n" [0xfe, 0xfd, 0xfc] := by
  have htarget : IsTarget "concat" "second" :=
    ⟨by decide, by decide, by decide, by decide, by decide⟩
  obtain ⟨hall, hjob⟩ := hex_buffers htarget
  obtain ⟨hmarked, hbare⟩ := hall [0x10] ['1', '0'] rfl
  refine ⟨hmarked, ?_, ?_⟩
  · rcases hbare with ⟨v, hread, hparse⟩ | ⟨v, hread, -, hparse⟩
    · have hnumber : (Assignment.mk "concat" "second" "10").value = .ok (.int 10) := rfl
      obtain rfl := Except.ok.inj (hnumber.symm.trans hread.2)
      cases hparse (fun _ => []) "second"
    · exact ⟨v, hread, hparse⟩
  · rcases hperform : hexJob.perform (.initial sampleFiles "now") with ⟨shown, w⟩
    have hshown : (hexJob.perform (.initial sampleFiles "now")).1.toOption = some "fefdfc\n" := by
      decide +kernel
    rw [hperform] at hshown
    cases shown with
    | error fault => cases hshown
    | ok text =>
      obtain rfl := Option.some.inj hshown
      obtain ⟨config, steps, out, -, hdigits, hcarries, -⟩ :=
        hjob hexJob (.initial sampleFiles "now") w [1, 2, 3] "fefdfc\n"
          (isFree_initial sampleFiles "now") rfl rfl rfl hperform
      have hline : Text.Hex.encode out ++ ['\n'] = ['f', 'e', 'f', 'd', 'f', 'c'] ++ ['\n'] := by
        simpa [Text.Hex.encodeString] using (congrArg String.toList hdigits).symm
      have hencoded := List.append_cancel_right hline
      have hspelled := Text.Hex.decode_eq_ok_iff.2 (Text.Hex.spelled_encode out)
      rw [hencoded] at hspelled
      have hdecoded : Text.Hex.decode ['f', 'e', 'f', 'd', 'f', 'c'] = .ok [0xfe, 0xfd, 0xfc] := rfl
      obtain rfl := Except.ok.inj (hspelled.symm.trans hdecoded)
      exact hcarries

end Command

end Octets
