import Octets.Plugin.Samples
import Octets.Proofs.Pipeline.Frame

/-!
# What the sample plugins write

A plugin may do anything. The samples keep to the frame that the kinds of this library keep to, so
they can be registered beside these, under any names and with any defaults, and every pipeline still
writes at most the buffer it is given. What they do not keep is that a refusal leaves all bytes
alone: one of them fails after it has overwritten leading bytes, and another after it has made a
copy.

* `isFramed_of_mem_samples` — each of them keeps to the frame, whatever its arguments are.
* `framed_run_of_samples` — a pipeline of kinds of this library and of samples.
* `not_delivered_failAfter` — the one that fails halfway does what no kind of this library does.
-/

namespace Octets

namespace Plugin

/-! ## Each sample -/

section

variable (v : Value) (inPlace : Bool) (s : Store)

theorem framed_target : Framed v inPlace s ((target v inPlace).outcome s) := by
  unfold target
  split
  · exact framed_self _ s
  · exact (Delivered.toBuffer s v).framed

theorem framed_addAmount (amount : Value) :
    Framed v inPlace s ((addAmount amount v inPlace).outcome s) := by
  refine (framed_target v inPlace s).andThen fun ref s' => ?_
  simp only [Action.outcome_bind, Action.outcome_read]
  split
  · exact (Delivered.overwritten ref _ s'.generators ⟨rfl, rfl⟩).framed
  · split
    · exact framed_self ref s'
    · exact .error (.refl s' _)
  · split
    · exact framed_self ref s'
    · exact .error (.refl s' _)

theorem framed_addZero : Framed v inPlace s ((addZero v inPlace).outcome s) :=
  (Delivered.reading fun bs => .allocate s (bs ++ [0])).framed

/-- What is left of bytes when so many at their start are overwritten. -/
def spoiled (count : Nat) (bs : Bytes) : Bytes :=
  List.replicate (min count bs.length) 0xee ++ bs.drop (min count bs.length)

/-- In place the buffer is left with its leading bytes overwritten. -/
theorem outcome_failAfter (message after : Value) (ref : Nat) :
    ∃ fault, (failAfter message after (.buffer ref) true).outcome s =
      (.error fault, s.overwrite ref (spoiled (after.asWhole?.getD 0).toNat (s.bytes ref))) :=
  ⟨_, rfl⟩

theorem framed_failAfter (message after : Value) :
    Framed v inPlace s ((failAfter message after v inPlace).outcome s) := by
  by_cases htarget : ∃ ref, v.IsTarget inPlace ref
  · obtain ⟨ref, rfl, rfl⟩ := htarget
    obtain ⟨fault, hfails⟩ := outcome_failAfter s message after ref
    rw [hfails]
    refine .error ((s.keeps_overwrite ref _ s.generators).mono ?_)
    rintro _ - rfl
    exact ⟨rfl, rfl⟩
  · unfold failAfter
    split
    · rename_i ref
      exact absurd ⟨ref, rfl, rfl⟩ htarget
    · exact .error (.refl s _)

/-- **One that fails halfway is unlike the kinds of this library**: these leave all bytes alone if
they refuse. -/
theorem not_delivered_failAfter {s : Store} {message after : Value} {ref : Nat}
    (hlive : ref < s.buffers.length)
    (hspoiled : spoiled (after.asWhole?.getD 0).toNat (s.bytes ref) ≠ s.bytes ref) :
    ¬ Delivered (.buffer ref) true s ((failAfter message after (.buffer ref) true).outcome s) := by
  obtain ⟨fault, hfails⟩ := outcome_failAfter s message after ref
  rw [hfails]
  intro h
  have hbytes := s.bytes_overwrite (spoiled (after.asWhole?.getD 0).toNat (s.bytes ref)) hlive
  generalize s.overwrite ref (spoiled _ _) = s' at h hbytes
  cases h with
  | refused => exact hspoiled hbytes.symm

end

/-- **Every sample keeps to the frame**, whatever its arguments are. -/
theorem isFramed_of_mem_samples {p : Plugin} (hp : p ∈ samples) (values : List Value) :
    (Transform.added p values).IsFramed := by
  intro v inPlace s
  simp only [samples, List.mem_cons, List.not_mem_nil, or_false] at hp
  rcases hp with rfl | rfl | rfl | rfl | rfl
  · exact framed_addAmount v inPlace s _
  · exact framed_addZero v inPlace s
  · exact framed_addZero v inPlace s
  · exact framed_failAfter v inPlace s _ _
  · exact (Delivered.toBuffer s v).framed

end Plugin

/-! ## Registries and pipelines -/

variable {r : Registry}

/-- Every name is registered with a kind of this library or with a sample. -/
def Registry.HasSamples (r : Registry) : Prop :=
  ∀ entry ∈ r, (∃ k, entry.family = .builtin k) ∨ ∃ p ∈ Plugin.samples, entry.family = .plugin p

theorem Family.eq_added_of_ofParams {p : Plugin} {params : Dict} {s s' : Store} {t : Transform}
    (h : ((plugin p).ofParams params).outcome s = (.ok t, s')) : ∃ values, t = .added p values := by
  obtain ⟨_, _, -, h⟩ := Action.ok_of_outcome_bind h
  obtain ⟨values, -, h⟩ := ok_of_bind (Action.ok_of_outcome_reading h).1
  exact ⟨values, (Except.ok.inj h).symm⟩

theorem Registry.isFramed_of_hasSamples (hr : r.HasSamples) : r.IsFramed := by
  intro entry hentry params s s' t hmade
  rcases hr entry hentry with ⟨k, hk⟩ | ⟨p, hp, hfamily⟩
  · rw [hk] at hmade
    exact Family.isFramed_of_ofParams hmade
  · rw [hfamily] at hmade
    obtain ⟨values, rfl⟩ := Family.eq_added_of_ofParams hmade
    exact Plugin.isFramed_of_mem_samples hp values

/-- **A pipeline of kinds of this library and of samples** writes at most the buffer it is given,
whether it succeeds or fails, and gives back that buffer or a new one. -/
theorem Pipeline.framed_run_of_hasSamples (hr : r.HasSamples) (v transforms : Value)
    (inPlace : Bool) (s : Store) : Framed v inPlace s ((run r v transforms inPlace).outcome s) :=
  framed_run (Registry.isFramed_of_hasSamples hr) v transforms inPlace s

end Octets
