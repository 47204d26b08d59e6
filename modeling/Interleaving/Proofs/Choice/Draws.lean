import Mathlib
import Interleaving.Proofs.Choice.Tape

/-!
# Draws of any kind

Words, bounded numbers, positions, fractions and bytes all come from the recorded words of a stream, so
any sequence of draws can be repeated: after a rewind, and by a copy
(`ChoiceStream.inTurn_draw_repeats`). Streams that are used side by side do not notice each other
(`ChoiceStream.inTurn_drawAt`).
-/

namespace Interleaving.ChoiceStream

/-- What can be asked of a stream. -/
inductive Draw where
  | word
  | int (bound : UInt64)
  | index (length : Nat)
  | double
  | bytes (count : Nat)

/-- What a stream answers. -/
inductive Drawn where
  | word (w : UInt64)
  | int (n : UInt64)
  | index (i : Nat)
  | double (x : Float)
  | bytes (bs : List UInt8)

/-- Makes one draw. -/
def draw : Draw → ChoiceStream → Drawn × ChoiceStream
  | .word, s => (.word s.nextUInt64.1, s.nextUInt64.2)
  | .int bound, s => (.int (s.nextInt bound).1, (s.nextInt bound).2)
  | .index length, s => (.index (s.nextIndex length).1, (s.nextIndex length).2)
  | .double, s => (.double s.nextDouble.1, s.nextDouble.2)
  | .bytes count, s => (.bytes (s.nextBytes count).1, (s.nextBytes count).2)

section Repeating

variable {t : Tape}

lemma repeatsAt_nextWords (n : Nat) (s : ChoiceStream) : (recorder t).RepeatsAt (nextWords n) s := by
  induction n generalizing s with
  | zero => exact .pure []
  | succ n ih =>
    exact (repeatsAt_nextUInt64 s).bind
      (g := fun w s => (wordBytes w ++ (nextWords n s).1, (nextWords n s).2)) ((ih _).map _)

lemma repeatsAt_nextBytes (n : Nat) (s : ChoiceStream) : (recorder t).RepeatsAt (nextBytes n) s :=
  (repeatsAt_nextWords _ s).map (·.take n)

lemma repeatsAt_draw (d : Draw) (s : ChoiceStream) : (recorder t).RepeatsAt (draw d) s := by
  cases d with
  | word => exact (repeatsAt_nextUInt64 s).map Drawn.word
  | int bound => exact (repeatsAt_nextInt bound s).map Drawn.int
  | index length => exact (repeatsAt_nextIndex length s).map Drawn.index
  | double => exact (repeatsAt_nextDouble s).map Drawn.double
  | bytes count => exact (repeatsAt_nextBytes count s).map Drawn.bytes

/-- On a tape with all that a sequence of draws has left recorded, the sequence is repeated. -/
lemma inTurn_draw_onTape {s : ChoiceStream} (start : s.cursor = 0) (draws : List Draw) (rng : Rng) :
    let made := Recorder.inTurn draw draws s
    Recorder.inTurn draw draws ⟨made.2.values, 0, rng⟩ =
      (made.1, ⟨made.2.values, made.2.cursor, rng⟩) := by
  intro made
  let t : Tape := ⟨made.2.values, rng⟩
  have repeats := Recorder.repeatsAt_inTurn (R := recorder t) repeatsAt_draw draws s
  have sound : made.2.cursor ≤ made.2.values.size := repeats.sound (start.trans_le (Nat.zero_le _))
  have again := repeats.repeats ⟨sound, List.prefix_refl _⟩
  rw [← start]
  exact again

lemma prefix_inTurn_draw {s : ChoiceStream} (start : s.cursor = 0) (draws : List Draw) :
    s.values.toList <+: (Recorder.inTurn draw draws s).2.values.toList := by
  have repeats := Recorder.repeatsAt_inTurn
    (R := recorder (Recorder.inTurn draw draws s).2.tape) repeatsAt_draw draws s
  have sound := repeats.sound (start.trans_le (Nat.zero_le _))
  exact (repeats.within ⟨sound, List.prefix_refl _⟩).2

end Repeating

section SideBySide

variable {ι : Type} [DecidableEq ι]

/-- Makes a draw from one of several streams, and says which it was. -/
def drawAt (use : ι × Draw) (streams : ι → ChoiceStream) : (ι × Drawn) × (ι → ChoiceStream) :=
  ((use.1, (draw use.2 (streams use.1)).1),
    Function.update streams use.1 (draw use.2 (streams use.1)).2)

/-- Those entries of a list that belong to one of the streams. -/
def ownOf {α : Type} (i : ι) (all : List (ι × α)) : List α := (all.filter (·.1 = i)).map (·.2)

lemma ownOf_cons_self {α : Type} (i : ι) (a : α) (all : List (ι × α)) :
    ownOf i ((i, a) :: all) = a :: ownOf i all := by
  simp [ownOf]

lemma ownOf_cons_of_ne {α : Type} {i j : ι} (h : j ≠ i) (a : α) (all : List (ι × α)) :
    ownOf i ((j, a) :: all) = ownOf i all := by
  simp [ownOf, h]

/-- What a stream answers and comes to depends on its own draws alone, whatever is drawn from the others
in between. -/
lemma inTurn_drawAt (i : ι) (uses : List (ι × Draw)) (streams : ι → ChoiceStream) :
    let made := Recorder.inTurn drawAt uses streams
    (ownOf i made.1, made.2 i) = Recorder.inTurn draw (ownOf i uses) (streams i) := by
  induction uses generalizing streams with
  | nil => rfl
  | cons use uses ih =>
    obtain ⟨j, d⟩ := use
    have rest := ih (drawAt (j, d) streams).2
    by_cases same : j = i
    · cases same
      have own : (drawAt (i, d) streams).2 i = (draw d (streams i)).2 := Function.update_self ..
      rw [own] at rest
      simp only [Recorder.inTurn, drawAt, ownOf_cons_self] at rest ⊢
      rw [← rest]
    · have other : (drawAt (j, d) streams).2 i = streams i :=
        Function.update_of_ne (Ne.symm same) ..
      rw [other] at rest
      simp only [Recorder.inTurn, drawAt, ownOf_cons_of_ne same] at rest ⊢
      exact rest

end SideBySide

/-- A stream and a copy of it. -/
inductive Side where
  | original
  | copied
deriving DecidableEq

/-- An original and its copy in use at the same time. -/
def beside (original copied : ChoiceStream) : Side → ChoiceStream
  | .original => original
  | .copied => copied

/-- Draws of any kinds from the start of a stream only add to what is recorded; rewound, the stream
answers the same draws in the same way and comes to the same end, and so does a copy of it, whatever its
own source, without recording more; and whatever is drawn from such a copy and from the original in any
order, each of them answers and ends as if it were alone. -/
theorem inTurn_draw_repeats (s : ChoiceStream) (start : s.cursor = 0) (draws : List Draw) :
    let answers := (Recorder.inTurn draw draws s).1
    let after := (Recorder.inTurn draw draws s).2
    s.values.toList <+: after.values.toList ∧
    Recorder.inTurn draw draws after.rewind = (answers, after) ∧
    ∀ rng, let copied := (after.copy rng).1
      Recorder.inTurn draw draws copied = (answers, ⟨after.values, after.cursor, copied.rng⟩) ∧
      ∀ (uses : List (Side × Draw)) (side : Side),
        let made := Recorder.inTurn drawAt uses (beside after copied)
        (ownOf side made.1, made.2 side) =
          Recorder.inTurn draw (ownOf side uses) (beside after copied side) := by
  intro answers after
  refine ⟨prefix_inTurn_draw start draws, inTurn_draw_onTape start draws after.rng, ?_⟩
  intro rng copied
  exact ⟨inTurn_draw_onTape start draws copied.rng, fun uses side => inTurn_drawAt side uses _⟩

theorem inTurn_draw_of_mixed_widths :
    let s := ofValues #[5, 258] 7
    let draws := [.bytes 3, .int 10, .index 4, .bytes 9]
    s.cursor = 0 ∧
    (Recorder.inTurn draw (draws.take 2) s).1 = [.bytes [5, 0, 0], .int 8] ∧
    Recorder.inTurn draw draws (Recorder.inTurn draw draws s).2.rewind =
      Recorder.inTurn draw draws s :=
  ⟨rfl, rfl, (inTurn_draw_repeats (ofValues #[5, 258] 7) rfl
    [.bytes 3, .int 10, .index 4, .bytes 9]).2.1⟩

end Interleaving.ChoiceStream
