import Mathlib
import Interleaving.Proofs.Schedule.Tape
import Interleaving.Proofs.Schedule.Generator

/-!
# Copies of generators

A copy of a generator makes the decisions of its run again, whatever is offered in answer to them
(`ScheduleGenerator.exists_copied_drive`). For a copy is the generator as it was at the start of the
run, but on the tape of all that its streams have recorded since.
-/

namespace Interleaving

variable {t u : Tape} {kept : ScheduleKind × Nat}

namespace RandomSchedule

/-- The stream is put on a tape. -/
def recorder (t : Tape) (kept : ScheduleKind × Nat) : Recorder RandomSchedule where
  onTape g := ⟨(ChoiceStream.recorder t).onTape g.choices⟩
  Within g := (ChoiceStream.recorder t).Within g.choices
  Sound g := (ChoiceStream.recorder t).Sound g.choices ∧ (.random, 0) = kept

lemma repeatsAt_next (enabled : List Operation) (g : RandomSchedule) :
    (recorder t kept).RepeatsAt (fun g => g.next enabled) g := by
  have h := g.choices.repeatsAt_nextIndex (t := t) enabled.length
  refine ⟨h.within, fun w => ?_, fun w => ⟨h.sound w.1, w.2⟩⟩
  have same := h.repeats w
  simp only [next, recorder, same]

end RandomSchedule

namespace ScheduleGenerator

/-- What stays as it is throughout a run. -/
def settings : ScheduleGenerator → ScheduleKind × Nat
  | random _ => (.random, 0)
  | pct g => g.settings
  | pctcp g => g.settings

/-- The streams of a generator are put on tapes. -/
def recorder (t u : Tape) (kept : ScheduleKind × Nat) : Recorder ScheduleGenerator where
  onTape
    | random g => random ((RandomSchedule.recorder t kept).onTape g)
    | pct g => pct ((PctSchedule.recorder t u kept).onTape g)
    | pctcp g => pctcp ((PctcpSchedule.recorder t u kept).onTape g)
  Within
    | random g => (RandomSchedule.recorder t kept).Within g
    | pct g => (PctSchedule.recorder t u kept).Within g
    | pctcp g => (PctcpSchedule.recorder t u kept).Within g
  Sound
    | random g => (RandomSchedule.recorder t kept).Sound g
    | pct g => (PctSchedule.recorder t u kept).Sound g
    | pctcp g => (PctcpSchedule.recorder t u kept).Sound g

lemma repeatsAt_next (enabled : List Operation) (g : ScheduleGenerator) :
    (recorder t u kept).RepeatsAt (next enabled) g := by
  cases g with
  | random g =>
    have h : (RandomSchedule.recorder t kept).RepeatsAt _ g := g.repeatsAt_next enabled
    exact ⟨h.within, fun w => congrArg (Prod.map id random) (h.repeats w), h.sound⟩
  | pct g =>
    have h : (PctSchedule.recorder t u kept).RepeatsAt _ g := g.repeatsAt_next enabled
    exact ⟨h.within, fun w => congrArg (Prod.map id pct) (h.repeats w), h.sound⟩
  | pctcp g =>
    have h : (PctcpSchedule.recorder t u kept).RepeatsAt _ g := g.repeatsAt_next enabled
    exact ⟨h.within, fun w => congrArg (Prod.map id pctcp) (h.repeats w), h.sound⟩

/-- The decisions of a run of `n` steps after those already made. What is offered at each step is for
the environment to say, which knows the decisions up to then. -/
def drive (env : List OperationId → List Operation) :
    Nat → List OperationId → ScheduleGenerator →
      Except StrategyError (List OperationId) × ScheduleGenerator
  | 0, made, g => (.ok made, g)
  | n + 1, made, g =>
    match g.next (env made) with
    | (.ok id, g) => drive env n (made ++ [id]) g
    | (.error e, g) => (.error e, g)

variable {env : List OperationId → List Operation}

/-- The run after its first decision. -/
def driveOn (env : List OperationId → List Operation) (n : Nat) (made : List OperationId)
    (first : Except StrategyError OperationId) (g : ScheduleGenerator) :
    Except StrategyError (List OperationId) × ScheduleGenerator :=
  match first with
  | .ok id => drive env n (made ++ [id]) g
  | .error e => (.error e, g)

lemma drive_succ (n : Nat) (made : List OperationId) (g : ScheduleGenerator) :
    drive env (n + 1) made g = driveOn env n made (next (env made) g).1 (next (env made) g).2 := by
  rw [drive]
  rcases g.next (env made) with ⟨_ | id, g⟩ <;> rfl

lemma repeatsAt_drive (env : List OperationId → List Operation) (n : Nat)
    (made : List OperationId) (g : ScheduleGenerator) :
    (recorder t u kept).RepeatsAt (drive env n made) g := by
  induction n generalizing made g with
  | zero => exact .pure (Except.ok made)
  | succ n ih =>
    have rest : ∀ first g, (recorder t u kept).RepeatsAt (driveOn env n made first) g := by
      intro first g
      cases first with
      | ok id => exact ih (made ++ [id]) g
      | error e => exact .pure (Except.error e)
    exact ((repeatsAt_next (env made) g).bind (rest _ _)).congr (drive_succ n made _)
      (drive_succ n made _)

/-- Every step of a run comes to a decision, if there is always something on offer. -/
lemma Valid.exists_drive {g : ScheduleGenerator} (V : g.Valid) (offers : ∀ made, env made ≠ [])
    (n : Nat) (made : List OperationId) :
    ∃ decisions, (drive env n made g).1 = .ok decisions ∧ decisions.length = made.length + n := by
  induction n generalizing made g with
  | zero => exact ⟨made, rfl, rfl⟩
  | succ n ih =>
    obtain ⟨⟨op, _, decision⟩, V'⟩ := V.next (offers made)
    obtain ⟨decisions, run, length⟩ := ih V' (made ++ [op.id])
    refine ⟨decisions, ?_, by rw [length, List.length_append, List.length_singleton]; omega⟩
    rw [drive_succ, decision]
    exact run

lemma sound_startIteration (g : ScheduleGenerator) (scheduleLength : Nat) :
    (recorder t u (g.startIteration scheduleLength).settings).Sound
      (g.startIteration scheduleLength) := by
  cases g with
  | random g => exact ⟨Nat.zero_le _, rfl⟩
  | pct g => exact g.sound_startIteration scheduleLength
  | pctcp g => exact g.sound_startIteration scheduleLength

/-- A copy is the generator at the start of its run, on tapes of all that has been recorded. -/
lemma exists_tapes {start g : ScheduleGenerator} {scheduleLength : Nat}
    (kept : ∀ t u, (recorder t u (start.startIteration scheduleLength).settings).Sound g)
    (rng : Rng) :
    ∃ t u k, (recorder t u k).Within g ∧
      ((recorder t u k).Within (start.startIteration scheduleLength) →
        (g.copied rng).1 = (recorder t u k).onTape (start.startIteration scheduleLength)) := by
  -- A generator on tape is of its own kind, and so is a copy: the settings rule out two kinds.
  cases g with
  | random g =>
    let t := (g.choices.copy rng).1.tape
    obtain ⟨sound, same⟩ := kept t t
    cases start with
    | random start => exact ⟨t, t, (.random, 0), g.choices.within_copy sound rng, fun _ => rfl⟩
    | pct start =>
      cases (Prod.mk.inj (same.trans (start.settings_startIteration scheduleLength))).1
    | pctcp start => cases (Prod.mk.inj same).1
  | pct g =>
    let t := (g.priorityChoices.copy rng).1.tape
    let u := (g.switchChoices.copy (g.priorityChoices.copy rng).2).1.tape
    obtain ⟨sound, sound', same⟩ := kept t u
    cases start with
    | random start => cases (Prod.mk.inj same).1
    | pct start =>
      exact ⟨t, u, g.settings, ⟨g.priorityChoices.within_copy sound rng,
          g.switchChoices.within_copy sound' _⟩,
        fun within => congrArg pct (PctSchedule.withStreams_onTape within same)⟩
    | pctcp start => cases (Prod.mk.inj same).1
  | pctcp g =>
    let t := (g.priorityChoices.copy rng).1.tape
    let u := (g.switchChoices.copy (g.priorityChoices.copy rng).2).1.tape
    obtain ⟨sound, sound', same⟩ := kept t u
    cases start with
    | random start => cases (Prod.mk.inj same).1
    | pct start =>
      cases (Prod.mk.inj (same.trans (start.settings_startIteration scheduleLength))).1
    | pctcp start =>
      exact ⟨t, u, g.settings, ⟨g.priorityChoices.within_copy sound rng,
          g.switchChoices.within_copy sound' _⟩,
        fun within => congrArg pctcp (PctcpSchedule.withStreams_onTape within same)⟩

/-- Whether every decision is drawn on its own. -/
def isRandom : ScheduleGenerator → Bool
  | random _ => true
  | pct _ => false
  | pctcp _ => false

lemma isRandom_next (enabled : List Operation) (g : ScheduleGenerator) :
    (g.next enabled).2.isRandom = g.isRandom := by
  cases g <;> rfl

lemma isRandom_startIteration (scheduleLength : Nat) (g : ScheduleGenerator) :
    (g.startIteration scheduleLength).isRandom = g.isRandom := by
  cases g <;> rfl

lemma isRandom_copied (rng : Rng) (g : ScheduleGenerator) :
    (g.copied rng).1.isRandom = g.isRandom := by
  cases g <;> rfl

lemma isRandom_mutated (rng : Rng) (g : ScheduleGenerator) :
    (g.mutated rng).1.isRandom = g.isRandom := by
  cases g <;> rfl

/-- On tape, a generator starts anew as it has started. One with change points does so unless there
have been longer runs since. -/
lemma startIteration_onTape {start : ScheduleGenerator} {scheduleLength longest : Nat}
    (within : (recorder t u kept).Within (start.startIteration scheduleLength))
    (le : start.isRandom = true ∨ longest ≤ scheduleLength) :
    ((recorder t u kept).onTape (start.startIteration scheduleLength)).startIteration longest =
      (recorder t u kept).onTape (start.startIteration scheduleLength) := by
  cases start with
  | random start => rfl
  | pct start =>
    exact congrArg pct (start.startIteration_onTape within (le.resolve_left Bool.false_ne_true))
  | pctcp start =>
    exact congrArg pctcp (start.startIteration_onTape within (le.resolve_left Bool.false_ne_true))

/-- A copy that is started anew repeats all the decisions of the run. -/
lemma inTurn_copied {α β : Type} {f : β → ScheduleGenerator → α × ScheduleGenerator}
    (each : ∀ t u kept b g, (recorder t u kept).RepeatsAt (f b) g) {start : ScheduleGenerator}
    {scheduleLength longest : Nat} (le : start.isRandom = true ∨ longest ≤ scheduleLength)
    {first requests : List β} (first_of : first <+: requests) (rng : Rng) :
    (Recorder.inTurn f first
        (((Recorder.inTurn f requests (start.startIteration scheduleLength)).2.copied
          rng).1.startIteration longest)).1 <+:
      (Recorder.inTurn f requests (start.startIteration scheduleLength)).1 := by
  have kept := fun t u => (Recorder.repeatsAt_inTurn (each t u _) requests _).sound
    (sound_startIteration start scheduleLength)
  obtain ⟨t, u, k, within, copied⟩ := exists_tapes kept rng
  have started := (Recorder.repeatsAt_inTurn (each t u k) requests _).within within
  rw [copied started, startIteration_onTape started le]
  exact Recorder.inTurn_onTape (each t u k) first_of within

/-- Copied at the end of a run, a generator makes the same decisions in the same environment. -/
theorem exists_copied_drive (g : ScheduleGenerator) (scheduleLength : Nat)
    (offers : ∀ made, env made ≠ []) (n : Nat) :
    ∃ decisions g', drive env n [] (g.startIteration scheduleLength) = (.ok decisions, g') ∧
      decisions.length = n ∧ ∀ rng, (drive env n [] (g'.copied rng).1).1 = .ok decisions := by
  have V := g.valid_startIteration scheduleLength
  obtain ⟨decisions, run, length⟩ := V.exists_drive offers n []
  refine ⟨decisions, _, Prod.ext run rfl, length.trans (Nat.zero_add n), fun rng => ?_⟩
  have kept := fun t u => (repeatsAt_drive (t := t) (u := u) env n [] _).sound
    (sound_startIteration g scheduleLength)
  obtain ⟨t, u, k, within, copied⟩ := exists_tapes kept rng
  have again : (recorder t u k).RepeatsAt (drive env n []) (g.startIteration scheduleLength) :=
    repeatsAt_drive env n [] _
  rw [copied (again.within within), again.repeats within]
  exact run

/-- A schedule over chains, of two actors one of which waits for the other after each of its steps. -/
theorem exists_copied_drive_of_two_actors :
    let env : List OperationId → List Operation := fun made =>
      if made.getLast? = some 0 then [.ofActor 1 "b"] else [.ofActor 0 "a", .ofActor 1 "b"]
    let g : ScheduleGenerator := .pctcp (PctcpSchedule.ofRng 3 (.ofSeed 42)).1
    (∀ made, env made ≠ []) ∧
    ∃ decisions g', drive env 5 [] (g.startIteration 8) = (.ok decisions, g') ∧
      decisions.length = 5 ∧ ∀ rng, (drive env 5 [] (g'.copied rng).1).1 = .ok decisions := by
  intro env g
  have offers : ∀ made, env made ≠ [] := by
    intro made
    simp only [env]
    split <;> exact List.cons_ne_nil _ _
  exact ⟨offers, exists_copied_drive g 8 offers 5⟩

end ScheduleGenerator

end Interleaving
