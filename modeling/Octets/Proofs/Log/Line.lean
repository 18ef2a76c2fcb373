import Octets.Log.Record
import Octets.Proofs.Json.Documents
import Octets.Proofs.Json.Text
import Octets.Proofs.Value.Lookup

/-!
# Lines of a log

A record is written as one line, and read back from it as it was. The line is a JSON object of
texts, one behind every key.

* `members_quote` — one member is read, up to what stands behind it.
* `members_membersOf` — all members are read as they are written, by induction on them.
* `document_membersOf` — an object of texts with distinct keys is read as it is written.
* `le_of_mem_line` — the line of a record holds no character below U+0020.
* `read_line` — what is read from it are the entries of the record.
-/

namespace Octets

/-! ## Objects of texts -/

namespace Json

section

variable {c : Char} {rest : List Char} {fuel room : Nat} (pos : Nat)

theorem skipBlanks_of_blank (h : isBlank c = false) :
    Cursor.skipBlanks ⟨pos, ' ' :: c :: rest⟩ = ⟨pos + 1, c :: rest⟩ := by
  have hspace : isBlank ' ' = true := rfl
  simp [Cursor.skipBlanks, Cursor.skip, h, hspace]

theorem quote_append (s rest : List Char) :
    quote false s ++ rest = '"' :: (escape false s ++ '"' :: rest) := by
  simp [quote]

/-- A text in quotes is read as this text. -/
theorem value_quote (s rest : List Char) :
    value (fuel + 1) room ⟨pos, quote false s ++ rest⟩
      = .ok (.text (String.ofList s), ⟨pos + 1 + (escape false s).length + 1, rest⟩) := by
  rw [quote_append, value.eq_def]
  simp only [unescape_escape, bind, Except.bind, pure, Except.pure]

/-- A member of two texts is read. Behind it the object ends at a brace and goes on at a comma. -/
theorem members_quote (fuel room : Nat) (rest : List Char) (k v : String)
    (hc : c = '\x7d' ∨ c = ',') :
    ∃ p, members (fuel + 2) room
        ⟨pos, quote false k.toList ++ ':' :: ' ' :: (quote false v.toList ++ c :: rest)⟩
      = if c = '\x7d' then .ok ([(.text k, .text v)], ⟨p, rest⟩)
        else (members (fuel + 1) room (Cursor.skipBlanks ⟨p, rest⟩)).map
          fun (more, cursor) => ((.text k, .text v) :: more, cursor) := by
  generalize htail : quote false v.toList ++ c :: rest = tail
  have hcolon : ∀ p, Cursor.skipBlanks ⟨p, ':' :: ' ' :: tail⟩ = ⟨p, ':' :: ' ' :: tail⟩ := fun p =>
    skipBlanks_of_not_blank p rfl
  have hskip : ∀ p, Cursor.skip ⟨p, ':' :: ' ' :: tail⟩ 1 = ⟨p + 1, ' ' :: tail⟩ := fun _ => rfl
  have hspace : ∀ p, Cursor.skipBlanks ⟨p, ' ' :: tail⟩ = ⟨p + 1, tail⟩ := by
    intro p
    rw [← htail, quote_append, skipBlanks_of_blank p rfl]
  have hvalue : ∀ p, value (fuel + 1) room ⟨p, tail⟩
      = .ok (.text v, ⟨p + 1 + (escape false v.toList).length + 1, c :: rest⟩) := by
    intro p
    rw [← htail, value_quote, String.ofList_toList]
  have hend : ∀ p, Cursor.skipBlanks ⟨p, c :: rest⟩ = ⟨p, c :: rest⟩ := by
    intro p
    rcases hc with rfl | rfl <;> exact skipBlanks_of_not_blank p rfl
  refine ⟨pos + 1 + (escape false k.toList).length + 1 + 1 + 1 + 1 +
    (escape false v.toList).length + 1 + 1, ?_⟩
  rw [quote_append, members.eq_def]
  simp only [unescape_escape, bind, Except.bind, hcolon, hskip, hspace, hvalue, hend,
    String.ofList_toList]
  rcases hc with rfl | rfl
  · rfl
  · -- the members behind the comma may be anything here, so what comes of them is taken as it is
    have hcomma : ∀ p, Cursor.skip ⟨p, ',' :: rest⟩ 1 = ⟨p + 1, rest⟩ := fun _ => rfl
    simp only [hcomma]
    generalize members (fuel + 1) room _ = result
    cases result <;> rfl

end

end Json

namespace Log

open Json

/-- An entry of two texts. -/
def textEntry (e : String × String) : Value × Value := (.text e.1, .text e.2)

theorem toList_member (e : String × String) :
    (Record.member (textEntry e)).toList
      = quote false e.1.toList ++ ':' :: ' ' :: quote false e.2.toList := by
  simp [Record.member, textEntry, quoteString, Value.asText?]

/-- The members of an object as they are written, between its braces. -/
def membersOf (es : List (String × String)) : List Char :=
  (Value.commas ((es.map textEntry).map Record.member)).toList

theorem membersOf_cons_cons (e next : String × String) (more : List (String × String)) :
    membersOf (e :: next :: more)
      = quote false e.1.toList ++ ':' :: ' ' :: (quote false e.2.toList ++ ',' :: ' ' ::
          membersOf (next :: more)) := by
  simp only [membersOf, List.map_cons, Value.commas, String.toList_append, toList_member,
    List.append_assoc, List.cons_append]
  rfl

/-- The first key is in quotes. -/
theorem exists_membersOf (e : String × String) (more : List (String × String)) :
    ∃ tail, membersOf (e :: more) = '"' :: tail := by
  cases more with
  | nil => exact ⟨_, toList_member e⟩
  | cons next more => exact ⟨_, membersOf_cons_cons e next more⟩

/-- **The members of an object of texts are read as they are written.** -/
theorem members_membersOf (room pos : Nat) (e : String × String) (more : List (String × String))
    (rest : List Char) {fuel : Nat} (hfuel : more.length + 2 ≤ fuel) :
    ∃ p, members fuel room ⟨pos, membersOf (e :: more) ++ '\x7d' :: rest⟩
      = .ok ((e :: more).map textEntry, ⟨p, rest⟩) := by
  induction more generalizing e fuel pos with
  | nil =>
    obtain ⟨fuel, rfl⟩ : ∃ n, fuel = n + 2 := ⟨fuel - 2, by omega⟩
    obtain ⟨p, hp⟩ := members_quote pos fuel room rest e.1 e.2 (Or.inl rfl)
    refine ⟨p, ?_⟩
    have hwritten : membersOf [e] ++ '\x7d' :: rest
        = quote false e.1.toList ++ ':' :: ' ' :: (quote false e.2.toList ++ '\x7d' :: rest) := by
      rw [membersOf, List.map_singleton, List.map_singleton, Value.commas, toList_member,
        List.append_assoc, List.cons_append, List.cons_append]
    rw [hwritten, hp, if_pos rfl]
    rfl
  | cons next more ih =>
    rw [List.length_cons] at hfuel
    obtain ⟨fuel, rfl⟩ : ∃ n, fuel = n + 2 := ⟨fuel - 2, by omega⟩
    obtain ⟨tail, htail⟩ := exists_membersOf next more
    have hless : more.length + 2 ≤ fuel + 1 := by omega
    obtain ⟨p, hp⟩ :=
      members_quote pos fuel room (' ' :: (membersOf (next :: more) ++ '\x7d' :: rest))
      e.1 e.2 (Or.inr rfl)
    obtain ⟨p', hp'⟩ := ih (p + 1) next hless
    have hskip : Cursor.skipBlanks ⟨p, ' ' :: (membersOf (next :: more) ++ '\x7d' :: rest)⟩
        = ⟨p + 1, membersOf (next :: more) ++ '\x7d' :: rest⟩ := by
      rw [htail, List.cons_append, skipBlanks_of_blank p rfl]
    refine ⟨p', ?_⟩
    rw [membersOf_cons_cons]
    simp only [List.append_assoc, List.cons_append]
    rw [hp, if_neg (by decide), hskip, hp']
    rfl

theorem length_le_length_membersOf (es : List (String × String)) :
    es.length ≤ (membersOf es).length := by
  induction es with
  | nil => exact Nat.zero_le _
  | cons e more ih =>
    cases more with
    | nil =>
      obtain ⟨tail, htail⟩ := exists_membersOf e []
      simp [htail]
    | cons next more =>
      rw [membersOf_cons_cons]
      simp only [List.length_cons, List.length_append] at ih ⊢
      omega

/-- An object of texts is read as it is written. -/
theorem value_membersOf (room pos : Nat) (e : String × String) (more : List (String × String))
    (rest : List Char) {fuel : Nat} (hfuel : more.length + 2 ≤ fuel) :
    ∃ p, value (fuel + 1) (room + 1) ⟨pos, '\x7b' :: (membersOf (e :: more) ++ '\x7d' :: rest)⟩
      = .ok (.dict (Dict.ofPairs ((e :: more).map textEntry)), ⟨p, rest⟩) := by
  obtain ⟨p, hp⟩ := members_membersOf room (pos + 1) e more rest hfuel
  obtain ⟨tail, htail⟩ := exists_membersOf e more
  rw [htail, List.cons_append] at hp ⊢
  have hskip : (Cursor.skip ⟨pos, '\x7b' :: '"' :: (tail ++ '\x7d' :: rest)⟩ 1).skipBlanks
      = ⟨pos + 1, '"' :: (tail ++ '\x7d' :: rest)⟩ := skipBlanks_of_not_blank (pos + 1) rfl
  refine ⟨p, ?_⟩
  rw [value.eq_def]
  simp only [hskip, hp, bind, Except.bind, pure, Except.pure]
  rfl

/-- **An object of texts with distinct keys is a document, and is read as it is written.** -/
theorem document_membersOf (e : String × String) (more : List (String × String))
    (h : Dict.IsDistinct ((e :: more).map textEntry)) :
    document ('\x7b' :: (membersOf (e :: more) ++ ['\x7d']))
      = .ok (.dict ((e :: more).map textEntry)) := by
  have hlength := length_le_length_membersOf (e :: more)
  have hfuel : more.length + 2 ≤ 2 *
      ('\x7b' :: (membersOf (e :: more) ++ ['\x7d'])).length + 1 := by
    simp only [List.length_cons, List.length_append] at hlength ⊢
    omega
  have hdepth : maxDepth = maxDepth - 1 + 1 := rfl
  obtain ⟨p, hp⟩ := value_membersOf (maxDepth - 1) 0 e more [] hfuel
  rw [Dict.ofPairs_of_isDistinct h, ← hdepth] at hp
  have hskip : Cursor.skipBlanks ⟨0, '\x7b' :: (membersOf (e :: more) ++ ['\x7d'])⟩
      = ⟨0, '\x7b' :: (membersOf (e :: more) ++ ['\x7d'])⟩ := skipBlanks_of_not_blank 0 rfl
  unfold document
  simp only [hskip, hp, bind, Except.bind, pure, Except.pure]
  rfl

theorem mem_commas {ss : List String} {c : Char} (h : c ∈ (Value.commas ss).toList) :
    (∃ s ∈ ss, c ∈ s.toList) ∨ c = ',' ∨ c = ' ' := by
  induction ss with
  | nil => cases h
  | cons s rest ih =>
    cases rest with
    | nil => exact Or.inl ⟨s, List.mem_cons_self, h⟩
    | cons next rest =>
      have hcommas : (Value.commas (s :: next :: rest)).toList
          = s.toList ++ ',' :: ' ' :: (Value.commas (next :: rest)).toList := by
        simp [Value.commas]
      rw [hcommas] at h
      simp only [List.mem_append, List.mem_cons] at h
      rcases h with h | h | h | h
      · exact Or.inl ⟨s, List.mem_cons_self, h⟩
      · exact Or.inr (Or.inl h)
      · exact Or.inr (Or.inr h)
      · rcases ih h with ⟨s', hs', hc⟩ | hc
        · exact Or.inl ⟨s', List.mem_cons_of_mem _ hs', hc⟩
        · exact Or.inr hc

theorem le_of_mem_membersOf {es : List (String × String)} {c : Char} (h : c ∈ membersOf es) :
    0x20 ≤ c.toNat := by
  rcases mem_commas h with ⟨s, hs, hc⟩ | rfl | rfl
  · obtain ⟨v, hv, rfl⟩ := List.mem_map.1 hs
    obtain ⟨e, -, rfl⟩ := List.mem_map.1 hv
    rw [toList_member] at hc
    simp only [List.mem_append, List.mem_cons] at hc
    rcases hc with hc | rfl | rfl | hc
    · exact le_of_mem_quote hc
    · decide
    · decide
    · exact le_of_mem_quote hc
  · decide
  · decide

/-! ## Lines -/

namespace Record

/-- The entries of a record, each of two texts. -/
def texts (stamp : String) (r : Record) : List (String × String) :=
  [("timestamp", stamp), ("level", levelName r.level), ("logger", loggerName r.logger),
    ("message", r.message)] ++ (r.exception.map fun e => ("exc", e)).toList

theorem entries_eq (stamp : String) (r : Record) :
    r.entries stamp = (r.texts stamp).map textEntry := by
  unfold entries texts
  cases r.exception <;> rfl

theorem toList_line (stamp : String) (r : Record) :
    (r.line stamp).toList = '\x7b' :: (membersOf (r.texts stamp) ++ ['\x7d']) := by
  rw [line, entries_eq, membersOf, String.toList_append, String.toList_append]
  rfl

/-- **A line holds no character below U+0020.** -/
theorem le_of_mem_line {stamp : String} {r : Record} {c : Char} (h : c ∈ (r.line stamp).toList) :
    0x20 ≤ c.toNat := by
  rw [toList_line] at h
  rcases List.mem_cons.1 h with rfl | h
  · decide
  rcases List.mem_append.1 h with h | h
  · exact le_of_mem_membersOf h
  · rw [List.mem_singleton.1 h]
    decide

/-- The keys of a record are distinct. -/
theorem isDistinct_entries (stamp : String) (r : Record) : Dict.IsDistinct (r.entries stamp) := by
  have hkeys : ∀ a b : String, (Value.text a).same (.text b) = (b == a) := fun a b => by
    rw [Value.same_eq_of_asText? rfl]
    rfl
  unfold entries Dict.IsDistinct
  cases r.exception <;> simp [hkeys]

/-- **A line is read as a JSON object with the entries of the record.** -/
theorem read_line (stamp : String) (r : Record) :
    Json.read (r.line stamp).toList = .ok (.dict (r.entries stamp)) := by
  obtain ⟨more, hmore⟩ : ∃ more, r.texts stamp = ("timestamp", stamp) :: more := ⟨_, rfl⟩
  have hdistinct := isDistinct_entries stamp r
  rw [entries_eq, hmore] at hdistinct
  rw [toList_line, entries_eq, hmore, Json.read, document_membersOf _ _ hdistinct]

end Record

end Log

end Octets
