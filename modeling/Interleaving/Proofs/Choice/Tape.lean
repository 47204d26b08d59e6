import Mathlib
import Interleaving.Choice.Stream

/-!
# Streams on tape

A stream can be put on a tape: it keeps its place, but reads the choices of the tape and has another
source behind them. As long as a stream records nothing but what is on the tape, and in its place, the
same stream on the tape makes the same choices.

`Recorder.RepeatsAt` says this of any function that draws, and `RepeatsAt.bind` puts such functions
together. The one function for which it has to be seen from the definition is `nextUInt64`.
-/

namespace Interleaving

/-- How states that hold streams are put on a tape. -/
structure Recorder (σ : Type) where
  /-- The same state, on the tape. -/
  onTape : σ → σ
  /-- All that the state has recorded is on the tape. -/
  Within : σ → Prop
  /-- What the functions that draw keep. -/
  Sound : σ → Prop

namespace Recorder

variable {σ α β : Type} {R : Recorder σ} {s : σ} {f f' : σ → α × σ}

/-- What a function makes of a state it makes of the same state on the tape, if the tape holds all
that has been recorded afterwards. Then it also holds all that was recorded before. -/
structure RepeatsAt (R : Recorder σ) (f : σ → α × σ) (s : σ) : Prop where
  within : R.Within (f s).2 → R.Within s
  repeats : R.Within (f s).2 → f (R.onTape s) = ((f s).1, R.onTape (f s).2)
  sound : R.Sound s → R.Sound (f s).2

namespace RepeatsAt

lemma pure (a : α) : R.RepeatsAt (fun s => (a, s)) s := ⟨id, fun _ => rfl, id⟩

lemma congr (h : R.RepeatsAt f s) (same : f' s = f s) (same' : f' (R.onTape s) = f (R.onTape s)) :
    R.RepeatsAt f' s := by
  refine ⟨?_, ?_, ?_⟩
  · rw [same]
    exact h.within
  · rw [same, same']
    exact h.repeats
  · rw [same]
    exact h.sound

/-- A function that draws may go on with what the first has drawn. -/
lemma bind {g : α → σ → β × σ} (hf : R.RepeatsAt f s) (hg : R.RepeatsAt (g (f s).1) (f s).2) :
    R.RepeatsAt (fun s => g (f s).1 (f s).2) s := by
  refine ⟨fun h => hf.within (hg.within h), fun h => ?_, fun h => hg.sound (hf.sound h)⟩
  simp only [hf.repeats (hg.within h)]
  exact hg.repeats h

lemma map (hf : R.RepeatsAt f s) (k : α → β) : R.RepeatsAt (fun s => (k (f s).1, (f s).2)) s :=
  hf.bind (g := fun a s => (k a, s)) (pure _)

end RepeatsAt

/-- What a function that draws makes of some requests, one after the other. -/
def inTurn (f : β → σ → α × σ) : List β → σ → List α × σ
  | [], s => ([], s)
  | b :: rest, s =>
    ((f b s).1 :: (inTurn f rest (f b s).2).1, (inTurn f rest (f b s).2).2)

lemma inTurn_append (f : β → σ → α × σ) (first rest : List β) (s : σ) :
    inTurn f (first ++ rest) s =
      ((inTurn f first s).1 ++ (inTurn f rest (inTurn f first s).2).1,
        (inTurn f rest (inTurn f first s).2).2) := by
  induction first generalizing s with
  | nil => rfl
  | cons b first ih => simp only [List.cons_append, inTurn, ih]

lemma repeatsAt_inTurn {f : β → σ → α × σ} (each : ∀ b s, R.RepeatsAt (f b) s) (requests : List β)
    (s : σ) : R.RepeatsAt (inTurn f requests) s := by
  induction requests generalizing s with
  | nil => exact .pure []
  | cons b rest ih =>
    exact (each b s).bind (g := fun a s => (a :: (inTurn f rest s).1, (inTurn f rest s).2))
      ((ih _).map _)

/-- On a tape of all that the requests have recorded, the first of them have the same outcomes. -/
lemma inTurn_onTape {f : β → σ → α × σ} (each : ∀ b s, R.RepeatsAt (f b) s)
    {first requests : List β} (first_of : first <+: requests)
    (within : R.Within (inTurn f requests s).2) :
    (inTurn f first (R.onTape s)).1 <+: (inTurn f requests s).1 := by
  obtain ⟨rest, rfl⟩ := first_of
  rw [inTurn_append] at within ⊢
  have within := (repeatsAt_inTurn each rest _).within within
  rw [(repeatsAt_inTurn each first s).repeats within]
  exact List.prefix_append _ _

end Recorder

/-- Choices, and a source for when they run out. -/
structure Tape where
  values : Array UInt64
  rng : Rng

namespace ChoiceStream

/-- All that a stream has recorded. -/
def tape (s : ChoiceStream) : Tape := ⟨s.values, s.rng⟩

/-- A stream is put on a tape at its place. The place is never behind what has been recorded. -/
def recorder (t : Tape) : Recorder ChoiceStream where
  onTape s := ⟨t.values, s.cursor, t.rng⟩
  Within s := s.cursor ≤ s.values.size ∧ s.values.toList <+: t.values.toList
  Sound s := s.cursor ≤ s.values.size

/-- A copy holds all that has been recorded. -/
lemma within_copy (s : ChoiceStream) (sound : s.cursor ≤ s.values.size) (rng : Rng) :
    (recorder (s.copy rng).1.tape).Within s := ⟨sound, List.prefix_refl _⟩

variable {t : Tape}

lemma getElem?_of_prefix {α : Type} {v w : Array α} (h : v.toList <+: w.toList) {i : Nat} {x : α}
    (get : v[i]? = some x) : w[i]? = some x := by
  rw [← Array.getElem?_toList] at get ⊢
  obtain ⟨rest, e⟩ := h
  obtain ⟨lt, _⟩ := List.getElem?_eq_some_iff.mp get
  rw [← e, List.getElem?_append_left lt, get]

lemma repeatsAt_nextUInt64 (s : ChoiceStream) : (recorder t).RepeatsAt nextUInt64 s := by
  cases get : s.values[s.cursor]? with
  | some recorded =>
    have lt := (Array.getElem?_eq_some_iff.mp get).1
    have run : s.nextUInt64 = (recorded, { s with cursor := s.cursor + 1 }) := by
      rw [nextUInt64, get]
    refine ⟨fun h => ?_, fun h => ?_, fun _ => ?_⟩
    · rw [run] at h
      exact ⟨lt.le, h.2⟩
    · rw [run] at h ⊢
      simp only [recorder, nextUInt64, getElem?_of_prefix h.2 get]
    · rw [run]
      exact lt
  | none =>
    have ge := Array.getElem?_eq_none_iff.mp get
    have run : s.nextUInt64 =
        (s.rng.nextUInt64.1, ⟨s.values.push s.rng.nextUInt64.1, s.cursor + 1, s.rng.nextUInt64.2⟩) := by
      rw [nextUInt64, get]
    -- A stream that records a choice is at the end of what it has recorded.
    refine ⟨fun h => ?_, fun h => ?_, fun h => ?_⟩
    · rw [run] at h
      obtain ⟨le, holds⟩ := h
      rw [Array.size_push] at le
      rw [Array.toList_push] at holds
      exact ⟨Nat.le_of_succ_le_succ le, (List.prefix_append _ _).trans holds⟩
    · rw [run] at h ⊢
      obtain ⟨le, holds⟩ := h
      rw [Array.size_push] at le
      have last : s.cursor = s.values.size := Nat.le_antisymm (Nat.le_of_succ_le_succ le) ge
      have fresh : t.values[s.cursor]? = some s.rng.nextUInt64.1 :=
        getElem?_of_prefix holds (by rw [last, Array.getElem?_push_size])
      simp only [recorder, nextUInt64, fresh]
    · rw [run]
      show s.cursor + 1 ≤ (s.values.push _).size
      rw [Array.size_push]
      exact Nat.succ_le_succ h

/-- A rewound copy repeats all that has been drawn from the start. -/
lemma inTurn_copy {α β : Type} {f : β → ChoiceStream → α × ChoiceStream}
    (each : ∀ t b s, (recorder t).RepeatsAt (f b) s) {s : ChoiceStream} (start : s.cursor = 0)
    {first requests : List β} (first_of : first <+: requests) (rng : Rng) :
    (Recorder.inTurn f first ((Recorder.inTurn f requests s).2.copy rng).1.rewind).1 <+:
      (Recorder.inTurn f requests s).1 := by
  let t := ((Recorder.inTurn f requests s).2.copy rng).1.tape
  have sound := (Recorder.repeatsAt_inTurn (each t) requests s).sound (start.trans_le (Nat.zero_le _))
  have copied : (recorder t).onTape s =
      ((Recorder.inTurn f requests s).2.copy rng).1.rewind :=
    congrArg (ChoiceStream.mk t.values · t.rng) start
  rw [← copied]
  exact Recorder.inTurn_onTape (each t) first_of (within_copy _ sound rng)

lemma repeatsAt_nextIndex (length : Nat) (s : ChoiceStream) :
    (recorder t).RepeatsAt (nextIndex length) s :=
  (repeatsAt_nextUInt64 s).map fun w => if length = 0 then 0 else w.toNat % length

lemma repeatsAt_nextInt (bound : UInt64) (s : ChoiceStream) :
    (recorder t).RepeatsAt (nextInt bound) s :=
  (repeatsAt_nextUInt64 s).map fun w => if bound = 0 then 0 else w % bound

lemma repeatsAt_nextDouble (s : ChoiceStream) : (recorder t).RepeatsAt nextDouble s :=
  (repeatsAt_nextUInt64 s).map Rng.unitInterval

end ChoiceStream

end Interleaving
