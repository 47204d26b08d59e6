import Mathlib
import Interleaving.Program.RegisterRace
import Interleaving.Proofs.Session.Rounds
import Interleaving.Proofs.Session.Start
import Interleaving.Proofs.Strategy.Steps

/-!
# The steps of a run

A strategy counts its decisions, and begins anew only when it gets ready for another run. A session lets it
do so between two runs of one exploration, but not before the first nor after the last one. So the steps
that are told of a run are its own and those that the strategy had counted when the run began
(`Explorer.steps_of_runs`): none in a new session and for each run that follows another in the same
exploration, but those of the run before, if it was the last of an exploration or was asked for alone.
-/

namespace Interleaving

namespace Strategy

variable {s s' : Strategy} {n : Nat}

/-- The bound on the decisions of a run; `0` is no bound. -/
def bound : Strategy → Nat
  | renewing s => s.maxSteps
  | feedback s => s.maxSteps
  | replay s => s.maxSteps
  | guided _ inner => inner.bound

lemma reachedMaxSteps_eq : s.reachedMaxSteps = reachesBound s.bound s.scheduledSteps := by
  induction s with
  | renewing s => rfl
  | feedback s => rfl
  | replay s => rfl
  | guided g inner ih => exact ih

/-- The strategy has counted so many more decisions, under the same bound. -/
structure Counts (n : Nat) (s s' : Strategy) : Prop where
  steps : s'.scheduledSteps = s.scheduledSteps + n
  bound : s'.bound = s.bound

/-- A decision that is repeated is one that could be read. -/
lemma exists_of_nextStep {α : Type} {r : ReplayStrategy} {read : TraceStep → Except Divergence α}
    {a : α} (answer : (r.nextStep read).1 = .ok a) : ∃ step, read step = .ok a := by
  rw [ReplayStrategy.nextStep] at answer
  split at answer
  · next step _ =>
    refine ⟨step, ?_⟩
    cases found : read step with
    | error divergence =>
      rw [found] at answer
      cases answer
    | ok b =>
      rw [found] at answer
      cases answer
      rfl
  · cases answer

lemma counts_nextStep {α : Type} {r : ReplayStrategy} {read : TraceStep → Except Divergence α} {a : α}
    (answer : (r.nextStep read).1 = .ok a) : Counts 1 (replay r) (replay (r.nextStep read).2) := by
  rw [ReplayStrategy.nextStep] at answer ⊢
  split at answer
  · exact ⟨rfl, rfl⟩
  · cases answer

lemma counts_nextBool {maxValue : UInt64} {b : Bool} (answer : s.nextBool maxValue = (.ok b, s')) :
    Counts 1 s s' := by
  replace ⟨answer, same⟩ := Prod.ext_iff.mp answer
  subst same
  induction s with
  | renewing s => exact ⟨rfl, rfl⟩
  | feedback s => exact ⟨rfl, rfl⟩
  | replay s => exact counts_nextStep answer
  | guided g inner ih =>
    obtain ⟨steps, bound⟩ := ih answer
    exact ⟨steps, bound⟩

lemma counts_nextInt {maxValue n : UInt64} (answer : s.nextInt maxValue = (.ok n, s')) :
    Counts 1 s s' := by
  replace ⟨answer, same⟩ := Prod.ext_iff.mp answer
  subst same
  induction s with
  | renewing s => exact ⟨rfl, rfl⟩
  | feedback s => exact ⟨rfl, rfl⟩
  | replay s => exact counts_nextStep answer
  | guided g inner ih =>
    obtain ⟨steps, bound⟩ := ih answer
    exact ⟨steps, bound⟩

/-- Only an operation is a decision. -/
lemma counts_nextOperation {ops : List Operation} {id? : Option OperationId}
    (answer : s.nextOperation ops = (.ok id?, s')) : Counts id?.toList.length s s' := by
  replace ⟨answer, same⟩ := Prod.ext_iff.mp answer
  subst same
  induction s generalizing ops with
  | renewing s =>
    simp only [nextOperation, Scheduler.nextOperation] at answer ⊢
    split at answer
    · cases answer
      exact ⟨rfl, rfl⟩
    · obtain ⟨id, -, rfl⟩ := map_eq_ok.mp answer
      exact ⟨rfl, rfl⟩
  | feedback s =>
    simp only [nextOperation, Scheduler.nextOperation] at answer ⊢
    split at answer
    · cases answer
      exact ⟨rfl, rfl⟩
    · obtain ⟨id, -, rfl⟩ := map_eq_ok.mp answer
      exact ⟨rfl, rfl⟩
  | replay s =>
    simp only [nextOperation, Scheduler.nextOperation] at answer ⊢
    by_cases some : ops.any (·.isEnabled) = true
    · rw [if_pos some] at answer ⊢
      have counts := counts_nextStep answer
      obtain ⟨step, read⟩ := exists_of_nextStep answer
      cases step with
      | schedule id =>
        rw [ReplayStrategy.readOperation] at read
        split at read
        · cases read
          exact counts
        · cases read
      | boolean b => cases read
      | integer n => cases read
    · rw [if_neg some] at answer ⊢
      cases answer
      exact ⟨rfl, rfl⟩
  | guided g inner ih =>
    obtain ⟨steps, bound⟩ := ih answer
    exact ⟨steps, bound⟩

lemma counts_observe (summary : RunSummary) : Counts 0 s (s.observe summary) := by
  induction s with
  | renewing s => exact ⟨rfl, rfl⟩
  | feedback s =>
    simp only [observe, Scheduler.observe]
    split <;> exact ⟨rfl, rfl⟩
  | replay s => exact ⟨rfl, rfl⟩
  | guided g inner ih =>
    obtain ⟨steps, bound⟩ := ih
    exact ⟨steps, bound⟩

lemma bound_prepare : s.prepare.2.bound = s.bound := by
  induction s with
  | renewing s => rfl
  | feedback s =>
    obtain ⟨_, _, _, _, _, eq⟩ := FeedbackStrategy.exists_nextGenerator_eq (s := s)
    exact congrArg (·.maxSteps) eq
  | replay s => rfl
  | guided g inner ih => exact ih

lemma scheduledSteps_prepare : s.prepare.2.scheduledSteps = 0 := by
  induction s with
  | renewing s => rfl
  | feedback s => rfl
  | replay s => rfl
  | guided g inner ih => exact ih

end Strategy

namespace Execution

variable {σ : Type} {id : OperationId} {e f : Execution σ Strategy} {a : Action σ} {carried bound : Nat}

/-- In a run that began when so many decisions were counted, all decisions counted since are in the
trace. -/
structure Carries (carried bound : Nat) (e : Execution σ Strategy) : Prop where
  steps : e.strategy.scheduledSteps = carried + e.trace.steps.size
  bound : e.strategy.bound = bound

lemma Carries.record {s : Strategy} (h : e.Carries carried bound) (counts : e.strategy.Counts 1 s)
    (step : TraceStep) : ({ e with strategy := s }.record step).Carries carried bound where
  steps := by
    show s.scheduledSteps = carried + (e.trace.steps.push step).size
    rw [counts.steps, h.steps, Array.size_push, Nat.add_assoc]
  bound := counts.bound.trans h.bound

lemma Carries.perform (h : e.Carries carried bound) (done : e.perform id a = (.ok (), f)) :
    f.Carries carried bound := by
  induction a generalizing e with
  | done s =>
    cases done
    exact ⟨h.steps, h.bound⟩
  | fail s error => cases done
  | chooseBool maxValue unanswered next ih =>
    rw [Execution.perform] at done
    split at done
    · next b s answer => exact ih b (h.record (Strategy.counts_nextBool answer) _) done
    · cases done
  | chooseInt maxValue unanswered next ih =>
    rw [Execution.perform] at done
    split at done
    · next n s answer => exact ih n (h.record (Strategy.counts_nextInt answer) _) done
    · cases done
  | send sender location receiver clock next ih =>
    apply ih _ done
    exact ⟨h.steps, h.bound⟩
  | dequeue receiver event next ih =>
    apply ih _ done
    exact ⟨h.steps, h.bound⟩
  | report message next ih =>
    apply ih _ done
    exact ⟨h.steps, h.bound⟩
  | inspect next ih => exact ih _ _ h done

/-- A run that comes to its end has all its decisions in the trace, and those that it began with make the
bound come earlier. -/
lemma Carries.run {program : Program σ} {fuel : Nat} {ending : Ending} (h : e.Carries carried bound)
    (ran : e.run program fuel = (ending, f)) (came : ∀ error, ending ≠ .failed error) :
    f.Carries carried bound ∧
      (ending = .bound → reachesBound bound (carried + f.trace.steps.size) = true) := by
  induction fuel generalizing e with
  | zero =>
    cases ran
    exact ⟨h, nofun⟩
  | succ fuel ih =>
    rw [Execution.run] at ran
    split at ran
    · next reached =>
      cases ran
      refine ⟨h, fun _ => ?_⟩
      rw [← h.bound, ← h.steps, ← Strategy.reachedMaxSteps_eq]
      exact reached
    split at ran
    · next error s _ =>
      cases ran
      exact absurd rfl (came error)
    · next s answer =>
      cases ran
      obtain ⟨steps, bound⟩ := Strategy.counts_nextOperation answer
      exact ⟨⟨steps.trans h.steps, bound.trans h.bound⟩, nofun⟩
    · next id s answer =>
      have recorded := h.record (Strategy.counts_nextOperation answer) (.schedule id)
      split at ran
      · next error _ _ =>
        cases ran
        exact absurd rfl (came error)
      · next g performed =>
        have performed := recorded.perform performed
        split at ran
        · cases ran
          exact ⟨performed, nofun⟩
        · exact ih performed ran

end Execution

namespace Explorer

/-- The decisions that the strategy has counted since it got ready for a run. -/
def counted {σ : Type} (x : Explorer σ Strategy) : Nat := x.execution.strategy.scheduledSteps

end Explorer

/-- What is told of a run that began when so many decisions were counted: its steps are all decisions that
are counted at its end, and it comes to the bound with them. -/
structure FinishedRun.Carries {σ : Type} (carried limit : Nat) (run : FinishedRun σ Strategy) : Prop where
  bound : run.session.execution.strategy.bound = limit
  counted : run.session.counted = carried + run.session.execution.trace.steps.size
  steps : run.row.steps = .ofNat (carried + run.session.execution.trace.steps.size)
  reached : run.row.reachedMaxSteps = true →
    0 < limit ∧ limit ≤ carried + run.session.execution.trace.steps.size

namespace Explorer

variable {σ : Type} {x y z : Explorer σ Strategy} {fuel left carried limit : Nat}

lemma carries_finish {e : Execution σ Strategy} {reached : Bool} (h : e.Carries carried limit)
    (late : reached = true → reachesBound limit (carried + e.trace.steps.size) = true) :
    FinishedRun.Carries carried limit ⟨(x.finish e reached).1, (x.finish e reached).2⟩ := by
  have observed := Strategy.counts_observe (s := e.strategy)
  rw [finish]
  -- Whether it is the program or the bound that makes the bug does not matter to the steps.
  generalize (if reached && x.config.failOnMaxSteps then
    some (boundMessage (Scheduler.scheduledSteps e.strategy)) else e.bug) = bug
  exact {
    bound := by cases bug <;> exact (observed _).bound.trans h.bound
    counted := by cases bug <;> exact (observed _).steps.trans h.steps
    steps := by cases bug <;> exact congrArg UInt64.ofNat h.steps
    reached := by
      intro reached
      have far := late reached
      rw [reachesBound, Bool.and_eq_true, decide_eq_true_iff, decide_eq_true_iff] at far
      cases bug <;> exact far }

lemma carries_runIteration {row : IterationReport} (ran : x.runIteration fuel = (.ok row, y)) :
    FinishedRun.Carries x.counted x.execution.strategy.bound ⟨row, y⟩ := by
  have begins : x.nextExecution.Carries x.counted x.execution.strategy.bound := ⟨rfl, rfl⟩
  rw [runIteration] at ran
  generalize came : x.nextExecution.run x.program fuel = ended at ran
  obtain ⟨ending, e⟩ := ended
  cases ending with
  | quiet =>
    cases ran
    exact carries_finish (begins.run came nofun).1 nofun
  | bug =>
    cases ran
    exact carries_finish (begins.run came nofun).1 nofun
  | bound =>
    cases ran
    obtain ⟨carries, late⟩ := begins.run came nofun
    exact carries_finish carries fun _ => late rfl
  | failed error => cases ran
  | unfinished => cases ran

/-- Whether an exploration is over with its last run, and the strategy does not get ready for another. -/
def endsWithRun : StopReason → Bool
  | .bugFound | .iterationsExhausted => true
  | .strategyExhausted | .timedOut | .stopped => false

lemma counted_prepare : x.prepare.2.counted = 0 := Strategy.scheduledSteps_prepare

/-- Only the first run of an exploration begins with decisions that are counted already. -/
lemma Proceeds.carries {made : List (FinishedRun σ Strategy)}
    {result : Except ExploreError StopReason} (h : Proceeds fuel left x made result z) {i : Nat}
    {run : FinishedRun σ Strategy} (get : made[i]? = some run) :
    run.Carries (if i = 0 then x.counted else 0) x.execution.strategy.bound := by
  have one {x y : Explorer σ Strategy} {row : IterationReport}
      (ran : x.runIteration fuel = (.ok row, y)) {i : Nat} (get : [⟨row, y⟩][i]? = some run) :
      run.Carries (if i = 0 then x.counted else 0) x.execution.strategy.bound := by
    cases i with
    | zero =>
      cases get
      exact carries_runIteration ran
    | succ i =>
      rw [List.getElem?_cons_succ, List.getElem?_nil] at get
      cases get
  induction h generalizing i with
  | spent | stopped | timedOut | failed =>
    rw [List.getElem?_nil] at get
    cases get
  | bugFound ran | last ran | exhausted ran => exact one ran get
  | @next x y z left row rest result ran goes more proceeds ih =>
    have limit : y.prepare.2.execution.strategy.bound = x.execution.strategy.bound :=
      Strategy.bound_prepare.trans (carries_runIteration ran).bound
    cases i with
    | zero =>
      cases get
      exact carries_runIteration ran
    | succ i =>
      have later := ih get
      rw [limit, counted_prepare, ite_self] at later
      exact later

/-- The decisions of its last run are left over from an exploration that is over with this run. -/
lemma Proceeds.counted {made : List (FinishedRun σ Strategy)} {reason : StopReason}
    (h : Proceeds fuel left x made (.ok reason) z) : z.counted =
      match made.getLast? with
      | none => x.counted
      | some run => if endsWithRun reason then run.session.counted else 0 := by
  generalize eq : Except.ok reason = result at h
  induction h with
  | spent | stopped | timedOut => rfl
  | failed => cases eq
  | bugFound | last =>
    cases eq
    rfl
  | exhausted =>
    cases eq
    exact counted_prepare
  | next _ _ _ proceeds ih =>
    have leaves := ih eq
    cases proceeds with
    | stopped | timedOut =>
      cases eq
      exact counted_prepare
    | failed => cases eq
    | bugFound | last | exhausted | next =>
      rw [List.getLast?_cons_cons]
      exact leaves

/-- In a new session nothing is counted, and under a given strategy what that has counted. Whatever calls a
session has behind it, the steps told of a run that is asked for are its own decisions and those that were
counted before, and with both it comes to the bound. An exploration tells the same of its first run, but
its other runs begin anew. What its last run has counted is left over, unless the strategy has got ready
for another run. -/
theorem steps_of_runs (config : Config) (program : Program σ) (fuel : Nat) :
    (∀ x, Explorer.new config program = .ok x → x.counted = 0) ∧
    (∀ strategy x, withStrategy config program strategy = .ok x →
      x.counted = strategy.scheduledSteps) ∧
    (∀ checkpoint iterations x, ofCheckpoint checkpoint program iterations = .ok x → x.counted = 0) ∧
    ∀ x : Explorer σ Strategy,
      (∀ row y, x.runIteration fuel = (.ok row, y) →
        FinishedRun.Carries x.counted x.execution.strategy.bound ⟨row, y⟩) ∧
      ∀ (ω : Type) (store : FileStore (StateM ω)) (elapsed : StateM ω Nat) (w : ω) report z,
        (x.explore store fuel elapsed w).1 = (.ok report, z) →
        let made := x.runs fuel report.rows.length
        report.rows = made.map (·.row) ∧
        (∀ i (run : FinishedRun σ Strategy), made[i]? = some run →
          run.Carries (if i = 0 then x.counted else 0) x.execution.strategy.bound) ∧
        z.counted =
          match made.getLast? with
          | none => x.counted
          | some run => if endsWithRun report.stopReason then run.session.counted else 0 := by
  refine ⟨fun x begun => ?_, fun strategy x begun => ?_, fun checkpoint iterations x begun => ?_,
    fun x => ⟨fun row y ran => carries_runIteration ran, ?_⟩⟩
  · obtain ⟨matcher, strategy, -, -, built, rfl⟩ := eq_start_of_new begun
    exact (config.runs_of_buildStrategy built).scheduledSteps
  · obtain ⟨matcher, -, -, rfl⟩ := eq_start_of_withStrategy begun
    rfl
  · obtain ⟨config, matcher, strategy, -, -, -, built, rfl⟩ := eq_start_of_ofCheckpoint begun
    exact (Config.runs_of_buildStrategy built).scheduledSteps
  · intro ω store elapsed w report z explored
    obtain ⟨made, result, z', nanos, proceeds, eq⟩ := proceeds_explore store fuel elapsed x w
    rw [explored] at eq
    obtain ⟨told, rfl⟩ := Prod.mk.inj eq
    obtain ⟨reason, rfl, rfl⟩ := map_eq_ok.mp told.symm
    have runs : x.runs fuel ((made.map (·.row)).toArray.toList).length = made := by
      rw [List.length_map]
      exact proceeds.runs_eq
    intro made'
    have same : made' = made := runs
    clear_value made'
    subst same
    exact ⟨rfl, fun i run => proceeds.carries, proceeds.counted⟩

/-- A client alone with its server, in two runs that are asked for one after the other: the second begins
with the decisions of the first. -/
theorem steps_of_two_runs :
    let config := { Config.standard with maxUnfairSteps := 15, maxFairSteps := 15 }
    let x := start config (RegisterRace.program 1) none (config.renewing .random)
    Explorer.new config (RegisterRace.program 1) = .ok x ∧
    ∃ row y, x.runIteration 30 = (.ok row, y) ∧ row.steps = 11 ∧
      y.execution.trace.steps.size = 11 ∧
      ∃ row' z, y.runIteration 30 = (.ok row', z) ∧
        row'.steps = .ofNat (11 + z.execution.trace.steps.size) := by
  intro config x
  have begun : Explorer.new config (RegisterRace.program 1) = .ok x := rfl
  have ran : (x.runIteration 30).1.toOption.map (·.steps) = some 11 ∧
      (x.runIteration 30).2.execution.trace.steps.size = 11 ∧
      ((x.runIteration 30).2.runIteration 30).1.toOption.isSome = true := by
    decide +kernel
  refine ⟨begun, ?_⟩
  obtain ⟨fresh, -, -, steps⟩ := steps_of_runs config (RegisterRace.program 1) 30
  cases one : x.runIteration 30 with
  | mk answer y =>
    rw [one] at ran
    obtain ⟨eleven, size, more⟩ := ran
    cases answer with
    | error error => cases eleven
    | ok row =>
      cases two : y.runIteration 30 with
      | mk answer' z =>
        rw [two] at more
        cases answer' with
        | error error => cases more
        | ok row' =>
          have counted : y.counted = 11 := by
            have carries := (steps x).1 row y one
            rw [carries.counted, fresh x begun, Nat.zero_add]
            exact size
          have carries := (steps y).1 row' z two
          rw [counted] at carries
          exact ⟨row, y, rfl, Option.some.inj eleven, size, row', z, two, carries.steps⟩

/-- The bound ends the second run after four decisions of its own, though it allows fifteen. -/
theorem steps_of_second_run :
    let config := { Config.standard with maxUnfairSteps := 15, maxFairSteps := 15 }
    let x := start config (RegisterRace.program 1) none (config.renewing .random)
    let y := (x.runIteration 30).2
    let z := (y.runIteration 30).2
    Explorer.new config (RegisterRace.program 1) = .ok x ∧
      (y.runIteration 30).1.map (fun row => (row.steps, row.reachedMaxSteps)) = .ok (15, true) ∧
      z.execution.trace.steps.size = 4 := by
  intro config x y z
  have begun : Explorer.new config (RegisterRace.program 1) = .ok x := rfl
  refine ⟨begun, ?_⟩
  decide +kernel

end Explorer

end Interleaving
