import Mathlib
import Interleaving.Session.Explorer

/-!
# The runs of a session

What a session does with the runs that it has left is said once (`Explorer.Proceeds`): which runs it
makes, why it makes no more of them, and what it is then. Whatever the clock shows and wherever the
session is kept, `Explorer.explore` does nothing else (`Explorer.proceeds_explore`).
-/

namespace Interleaving

/-- A run that has come to its end: what is told of it, and the session after it. -/
structure FinishedRun (σ S : Type) where
  row : IterationReport
  session : Explorer σ S

namespace Explorer

variable {σ S ω : Type} [Scheduler S] {x y z : Explorer σ S} {fuel left : Nat}

/-- The next so many runs of a session, as far as they come to their end. -/
def runs (fuel : Nat) : Nat → Explorer σ S → List (FinishedRun σ S)
  | 0, _ => []
  | n + 1, x =>
    match x.runIteration fuel with
    | (.ok row, y) => ⟨row, y⟩ :: runs fuel n y.prepare.2
    | (.error _, _) => []

/-- Whether a session makes no more runs because of the bug in the last one. -/
def stopsAfter (x : Explorer σ S) (row : IterationReport) : Bool :=
  row.bug.isSome && !x.config.fullExploration

/-- What a session does that has so many runs left: the runs that it makes, why it makes no more of
them, and what it is then. -/
inductive Proceeds (fuel : Nat) : Nat → Explorer σ S → List (FinishedRun σ S) →
    Except ExploreError StopReason → Explorer σ S → Prop where
  | spent {x : Explorer σ S} : Proceeds fuel 0 x [] (.ok .iterationsExhausted) x
  | stopped {x : Explorer σ S} {left : Nat} :
    x.stopRequested = true → Proceeds fuel (left + 1) x [] (.ok .stopped) x
  | timedOut {x : Explorer σ S} {left : Nat} :
    x.config.timeoutSecs.isSome → Proceeds fuel (left + 1) x [] (.ok .timedOut) x
  | failed {x y : Explorer σ S} {left : Nat} {error : ExploreError} :
    x.runIteration fuel = (.error error, y) → Proceeds fuel (left + 1) x [] (.error error) y
  | bugFound {x y : Explorer σ S} {left : Nat} {row : IterationReport} :
    x.runIteration fuel = (.ok row, y) → y.stopsAfter row = true →
    Proceeds fuel (left + 1) x [⟨row, y⟩] (.ok .bugFound) y
  | last {x y : Explorer σ S} {row : IterationReport} :
    x.runIteration fuel = (.ok row, y) → y.stopsAfter row = false →
    Proceeds fuel 1 x [⟨row, y⟩] (.ok .iterationsExhausted) y
  | exhausted {x y : Explorer σ S} {left : Nat} {row : IterationReport} :
    x.runIteration fuel = (.ok row, y) → y.stopsAfter row = false → y.prepare.1 = false →
    Proceeds fuel (left + 2) x [⟨row, y⟩] (.ok .strategyExhausted) y.prepare.2
  | next {x y z : Explorer σ S} {left : Nat} {row : IterationReport}
      {rest : List (FinishedRun σ S)} {result : Except ExploreError StopReason} :
    x.runIteration fuel = (.ok row, y) → y.stopsAfter row = false → y.prepare.1 = true →
    Proceeds fuel (left + 1) y.prepare.2 rest result z →
    Proceeds fuel (left + 2) x (⟨row, y⟩ :: rest) result z

lemma runs_succ_of_ok {row : IterationReport} (ran : x.runIteration fuel = (.ok row, y)) (n : Nat) :
    x.runs fuel (n + 1) = ⟨row, y⟩ :: y.prepare.2.runs fuel n := by
  rw [runs, ran]

lemma runs_succ_of_error {error : ExploreError} (ran : x.runIteration fuel = (.error error, y))
    (n : Nat) : x.runs fuel (n + 1) = [] := by
  rw [runs, ran]

namespace Proceeds

variable {made : List (FinishedRun σ S)} {result : Except ExploreError StopReason}

/-- The runs made are those that the session makes one after the other. -/
lemma runs_eq (h : Proceeds fuel left x made result z) : x.runs fuel made.length = made := by
  induction h with
  | spent | stopped | timedOut | failed => rfl
  | bugFound ran | last ran | exhausted ran => exact runs_succ_of_ok ran 0
  | next ran _ _ _ ih =>
    rw [List.length_cons, runs_succ_of_ok ran, ih]

/-- The run that fails is none of those made. -/
lemma runs_eq_of_error {error : ExploreError} (h : Proceeds fuel left x made (.error error) z) :
    made.length < left ∧ x.runs fuel (made.length + 1) = made := by
  generalize e : Except.error error = result at h
  induction h with
  | spent | stopped | timedOut | bugFound | last | exhausted => cases e
  | failed ran => exact ⟨Nat.succ_pos _, runs_succ_of_error ran 0⟩
  | next ran _ _ _ ih =>
    obtain ⟨lt, eq⟩ := ih e
    refine ⟨Nat.succ_lt_succ lt, ?_⟩
    rw [List.length_cons, runs_succ_of_ok ran, eq]

/-- A session that stops at the first bug makes no run after one that shows a bug. -/
lemma of_bug {row : IterationReport} (h : Proceeds fuel (left + 1) x made result z)
    (going : x.stopRequested = false) (unlimited : x.config.timeoutSecs = none)
    (ran : x.runIteration fuel = (.ok row, y)) (stops : y.stopsAfter row = true) :
    made = [⟨row, y⟩] ∧ result = .ok .bugFound ∧ z = y := by
  cases h with
  | stopped stop =>
    rw [going] at stop
    cases stop
  | timedOut limited =>
    rw [unlimited] at limited
    cases limited
  | failed failed =>
    rw [ran] at failed
    cases failed
  | bugFound ran' =>
    cases ran.symm.trans ran'
    exact ⟨rfl, rfl, rfl⟩
  | last ran' goes | exhausted ran' goes | next ran' goes =>
    cases ran.symm.trans ran'
    rw [stops] at goes
    cases goes

end Proceeds

/-- What is left of a session after one more run that has told `row`. -/
def goOn (x : Explorer σ S) (fuel : Nat) (elapsed : StateM ω Nat) (left : Nat)
    (rows : Array IterationReport) (row : IterationReport) :
    StateM ω (Except ExploreError (Array IterationReport × StopReason) × Explorer σ S) :=
  if x.stopsAfter row then pure (.ok (rows, .bugFound), x)
  else if left = 0 then pure (.ok (rows, .iterationsExhausted), x)
  else if x.prepare.1 then x.prepare.2.rounds fuel elapsed left rows
  else pure (.ok (rows, .strategyExhausted), x.prepare.2)

lemma rounds_succ {elapsed : StateM ω Nat} {rows : Array IterationReport} {w : ω} :
    x.rounds fuel elapsed (left + 1) rows w =
      if x.stopRequested then ((.ok (rows, .stopped), x), w)
      else if x.timedOut (elapsed w).1 then ((.ok (rows, .timedOut), x), (elapsed w).2)
      else match x.runIteration fuel with
        | (.error error, x) => ((.error error, x), (elapsed w).2)
        | (.ok row, x) => x.goOn fuel elapsed left (rows.push row) row (elapsed w).2 := by
  rw [Explorer.rounds]
  by_cases stopped : x.stopRequested = true
  · rw [if_pos stopped, if_pos stopped]
    rfl
  · rw [if_neg stopped, if_neg stopped]
    show (if x.timedOut (elapsed w).1 then _ else _ : StateM ω _) (elapsed w).2 = _
    by_cases late : x.timedOut (elapsed w).1 = true
    · rw [if_pos late, if_pos late]
      rfl
    · rw [if_neg late, if_neg late]
      cases x.runIteration fuel with
      | mk result x =>
        cases result with
        | error error => rfl
        | ok row =>
          simp only [goOn]
          cases x.prepare with
          | mk more y => cases more <;> rfl

lemma run_eq {elapsed : StateM ω Nat} {w : ω} :
    x.run fuel elapsed w =
      match x.rounds fuel elapsed x.config.iterations.toNat #[] w with
      | ((.ok (rows, reason), y), w) =>
        ((.ok (y.report rows reason (elapsed w).1), y), (elapsed w).2)
      | ((.error error, y), w) => ((.error error, y), w) := by
  simp only [run, bind, StateT.bind]
  generalize x.rounds fuel elapsed x.config.iterations.toNat #[] w = result
  obtain ⟨⟨error | ⟨rows, reason⟩, y⟩, w⟩ := result <;> rfl

/-- That a session is kept in a directory does not change what is reported of it. -/
lemma fst_explore (store : FileStore (StateM ω)) (elapsed : StateM ω Nat) (w : ω) :
    (x.explore store fuel elapsed w).1 = (x.run fuel elapsed w).1 := by
  simp only [explore, bind, StateT.bind]
  generalize x.run fuel elapsed w = result
  obtain ⟨⟨error | report, y⟩, w⟩ := result
  · rfl
  · dsimp only
    cases y.config.outputDir <;> rfl

lemma proceeds_rounds (fuel : Nat) (elapsed : StateM ω Nat) (left : Nat)
    (rows : Array IterationReport) (x : Explorer σ S) (w : ω) :
    ∃ made result z, Proceeds fuel left x made result z ∧
      (x.rounds fuel elapsed left rows w).1 =
        (result.map fun reason => (rows ++ (made.map (·.row)).toArray, reason), z) := by
  -- On the runs left: each way out of one round is one of the ways to proceed.
  induction left generalizing rows x w with
  | zero => exact ⟨[], _, x, .spent, by simp [rounds, pure, StateT.pure, Except.map]⟩
  | succ left ih =>
    rw [rounds_succ]
    split
    · next stop => exact ⟨[], _, x, .stopped stop, by simp [Except.map]⟩
    split
    · next late =>
      have limited : x.config.timeoutSecs.isSome := by
        rw [timedOut] at late
        cases limit : x.config.timeoutSecs with
        | none =>
          rw [limit] at late
          cases late
        | some => rfl
      exact ⟨[], _, x, .timedOut limited, by simp [Except.map]⟩
    cases ran : x.runIteration fuel with
    | mk answer y =>
      cases answer with
      | error error => exact ⟨[], _, y, .failed ran, rfl⟩
      | ok row =>
        have told : rows.push row = rows ++ #[row] := by simp
        show ∃ made result z, _ ∧ (y.goOn fuel elapsed left (rows.push row) row _).1 = _
        rw [goOn, told]
        split
        · next stops => exact ⟨[⟨row, y⟩], _, y, .bugFound ran stops, rfl⟩
        next goes =>
        have goes : y.stopsAfter row = false := Bool.eq_false_of_not_eq_true goes
        cases left with
        | zero => exact ⟨[⟨row, y⟩], _, y, .last ran goes, rfl⟩
        | succ left =>
          -- Only here does the strategy get ready, as another run is to follow.
          rw [if_neg (Nat.succ_ne_zero left)]
          cases more : y.prepare.1 with
          | false => exact ⟨[⟨row, y⟩], _, y.prepare.2, .exhausted ran goes more, rfl⟩
          | true =>
            obtain ⟨rest, result, z, proceeds, eq⟩ := ih (rows ++ #[row]) y.prepare.2 (elapsed w).2
            refine ⟨⟨row, y⟩ :: rest, result, z, .next ran goes more proceeds, ?_⟩
            rw [if_pos rfl, eq]
            simp

/-- A session makes its runs, and tells of them if none of them failed. -/
lemma proceeds_run (fuel : Nat) (elapsed : StateM ω Nat) (x : Explorer σ S) (w : ω) :
    ∃ made result z nanos, Proceeds fuel x.config.iterations.toNat x made result z ∧
      (x.run fuel elapsed w).1 =
        (result.map fun reason => z.report (made.map (·.row)).toArray reason nanos, z) := by
  obtain ⟨made, result, z, proceeds, eq⟩ :=
    proceeds_rounds fuel elapsed x.config.iterations.toNat #[] x w
  rw [run_eq]
  generalize x.rounds fuel elapsed x.config.iterations.toNat #[] w = ended at eq ⊢
  obtain ⟨ended, w⟩ := ended
  subst eq
  cases result with
  | error error => exact ⟨made, _, z, 0, proceeds, rfl⟩
  | ok reason => exact ⟨made, _, z, (elapsed w).1, proceeds, by simp [Except.map]⟩

/-- That the session is kept in a directory afterwards makes no difference. -/
lemma proceeds_explore (store : FileStore (StateM ω)) (fuel : Nat) (elapsed : StateM ω Nat)
    (x : Explorer σ S) (w : ω) :
    ∃ made result z nanos, Proceeds fuel x.config.iterations.toNat x made result z ∧
      (x.explore store fuel elapsed w).1 =
        (result.map fun reason => z.report (made.map (·.row)).toArray reason nanos, z) := by
  rw [fst_explore]
  exact proceeds_run fuel elapsed x w

end Explorer

end Interleaving
