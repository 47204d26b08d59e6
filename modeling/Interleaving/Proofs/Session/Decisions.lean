import Interleaving.Program.RegisterRace
import Interleaving.Proofs.Strategy.Steps
import Interleaving.Proofs.Trace
import Interleaving.Session.Execution

/-!
# Runs as functions of their decisions

`Action.Performs` and `Program.Plays` tell what a program does with given decisions, with no strategy
in sight. A run under a live strategy is a play with the decisions in its trace, and a play is run
again by the strategy that replays its decisions. The two halves meet in the play, so that neither has
to know of the other.
-/

namespace Interleaving

variable {σ : Type} {id : OperationId} {bound fuel : Nat} {fair : Bool}

namespace Action

/-- What is done does not depend on the races found so far. -/
def IgnoresRaces : Action σ → Prop
  | .done _ => True
  | .fail .. => True
  | .chooseBool _ _ next => ∀ b, (next b).IgnoresRaces
  | .chooseInt _ _ next => ∀ n, (next n).IgnoresRaces
  | .send _ _ _ _ next => next.IgnoresRaces
  | .dequeue _ _ next => next.IgnoresRaces
  | .report _ next => next.IgnoresRaces
  | .inspect next => ∀ id races, next id races = next id 0 ∧ (next id races).IgnoresRaces

/-- Given the answers in `steps`, an action of the operation `id` comes to its end in a state. The
first bug reported is followed from before to after. -/
inductive Performs (id : OperationId) :
    Action σ → Option String → List TraceStep → σ → Option String → Prop where
  | done {s : σ} {bug : Option String} :
    Performs id (.done s) bug [] s bug
  | chooseBool {maxValue : UInt64} {unanswered s : σ} {next : Bool → Action σ} {b : Bool}
      {bug bug' : Option String} {steps : List TraceStep} :
    Performs id (next b) bug steps s bug' →
    Performs id (.chooseBool maxValue unanswered next) bug (.boolean b :: steps) s bug'
  | chooseInt {maxValue : UInt64} {unanswered s : σ} {next : UInt64 → Action σ} {n : UInt64}
      {bug bug' : Option String} {steps : List TraceStep} :
    maxValue = 0 ∨ n < maxValue →
    Performs id (next n) bug steps s bug' →
    Performs id (.chooseInt maxValue unanswered next) bug (.integer n :: steps) s bug'
  | send {sender receiver : String} {location : UInt32} {clock : VectorClock} {next : Action σ}
      {s : σ} {bug bug' : Option String} {steps : List TraceStep} :
    Performs id next bug steps s bug' →
    Performs id (.send sender location receiver clock next) bug steps s bug'
  | dequeue {receiver : String} {event : Event} {next : Action σ}
      {s : σ} {bug bug' : Option String} {steps : List TraceStep} :
    Performs id next bug steps s bug' →
    Performs id (.dequeue receiver event next) bug steps s bug'
  | report {message : String} {next : Action σ}
      {s : σ} {bug bug' : Option String} {steps : List TraceStep} :
    Performs id next (bug.or (some message)) steps s bug' →
    Performs id (.report message next) bug steps s bug'
  | inspect {races : Nat} {next : OperationId → Nat → Action σ}
      {s : σ} {bug bug' : Option String} {steps : List TraceStep} :
    Performs id (next id races) bug steps s bug' →
    Performs id (.inspect next) bug steps s bug'

end Action

namespace Program

/-- No operation of the program depends on the races found so far. -/
def IgnoresRaces (program : Program σ) : Prop := ∀ s id, (program.execute s id).IgnoresRaces

/-- From a state, after so many decisions, a program can make the decisions `steps` and then either
report its first bug, or have no bug when it comes to the bound. At most `fuel - 1` operations are
run. -/
inductive Plays (program : Program σ) (bound : Nat) :
    Nat → Nat → σ → List TraceStep → Option String → Prop where
  | bound {fuel n : Nat} {s : σ} :
    reachesBound bound n = true →
    Plays program bound (fuel + 1) n s [] none
  | bug {fuel n : Nat} {s s' : σ} {op : Operation} {steps : List TraceStep} {message : String} :
    reachesBound bound n = false →
    op ∈ program.operations s →
    op.isEnabled = true →
    (program.execute s op.id).Performs op.id none steps s' (some message) →
    Plays program bound (fuel + 1) n s (.schedule op.id :: steps) (some message)
  | next {fuel n : Nat} {s s' : σ} {op : Operation} {steps rest : List TraceStep}
      {bug : Option String} :
    reachesBound bound n = false →
    op ∈ program.operations s →
    op.isEnabled = true →
    (program.execute s op.id).Performs op.id none steps s' none →
    Plays program bound fuel (n + 1 + steps.length) s' rest bug →
    Plays program bound (fuel + 1) n s (.schedule op.id :: (steps ++ rest)) bug

end Program

namespace Execution

variable {program : Program σ} {ending : Ending}
variable {e f : Execution σ Strategy} {a : Action σ} {T : Trace} {step : TraceStep}
variable {rest steps : List TraceStep} {s : σ} {bug bug' : Option String}

/-- The strategy of the run is a live one, and has counted the decisions in the trace. -/
def IsLive (bound : Nat) (fair : Bool) (e : Execution σ Strategy) : Prop :=
  e.strategy.Runs bound fair e.trace.steps.size

/-- A decision that the strategy has counted goes into the trace. -/
lemma isLive_record {s' : Strategy} (runs : s'.Runs bound fair (e.trace.steps.size + 1)) :
    ({ e with strategy := s' }.record step).IsLive bound fair := by
  show s'.Runs bound fair (e.trace.steps.push step).size
  rwa [Array.size_push]

/-- What a live strategy makes a program do is a play with the decisions that go into the trace. -/
lemma performs_of_perform (live : e.IsLive bound fair) (h : e.perform id a = (.ok (), f)) :
    ∃ steps, a.Performs id e.bug steps f.state f.bug ∧ f.trace = e.trace.extend steps ∧
      f.IsLive bound fair := by
  induction a generalizing e with
  | done s =>
    cases h
    exact ⟨[], .done, rfl, live⟩
  | fail s error => cases h
  | chooseBool maxValue unanswered next ih =>
    obtain ⟨b, s', answer, runs⟩ := Strategy.Runs.nextBool live maxValue
    have answer : Scheduler.nextBool e.strategy maxValue = (.ok b, s') := answer
    rw [perform, answer] at h
    obtain ⟨steps, performs, trace, live⟩ := ih b (isLive_record runs) h
    exact ⟨.boolean b :: steps, .chooseBool performs, trace, live⟩
  | chooseInt maxValue unanswered next ih =>
    obtain ⟨n, s', answer, lt, runs⟩ := Strategy.Runs.nextInt live maxValue
    have answer : Scheduler.nextInt e.strategy maxValue = (.ok n, s') := answer
    rw [perform, answer] at h
    obtain ⟨steps, performs, trace, live⟩ := ih n (isLive_record runs) h
    exact ⟨.integer n :: steps, .chooseInt lt performs, trace, live⟩
  | send sender location receiver clock next ih =>
    obtain ⟨steps, performs, trace, live⟩ :=
      ih (e := { e with monitor := (e.monitor.onSend sender location receiver clock).2 }) live h
    exact ⟨steps, .send performs, trace, live⟩
  | dequeue receiver event next ih =>
    obtain ⟨steps, performs, trace, live⟩ :=
      ih (e := { e with observer := e.observer.onDequeue receiver event }) live h
    exact ⟨steps, .dequeue performs, trace, live⟩
  | report message next ih =>
    obtain ⟨steps, performs, trace, live⟩ := ih (e := e.reportBug message) live h
    exact ⟨steps, .report performs, trace, live⟩
  | inspect next ih =>
    obtain ⟨steps, performs, trace, live⟩ := ih id e.monitor.count live h
    exact ⟨steps, .inspect performs, trace, live⟩

/-- The run repeats the trace `T`, of which the decisions `left` are still to be made. -/
structure Replays (T : Trace) (bound : Nat) (left : List TraceStep)
    (e : Execution σ Strategy) : Prop where
  strategy : e.strategy = .replay ⟨T, e.trace.steps.size, bound⟩
  steps : T.steps.toList = e.trace.steps.toList ++ left

lemma Replays.getElem? (h : e.Replays T bound (step :: rest)) :
    T.steps[e.trace.steps.size]? = some step := by
  rw [← Array.getElem?_toList, h.steps, ← Array.length_toList]
  simp

/-- Once the next decision is made, it is no longer to be made. -/
lemma Replays.record (h : e.Replays T bound (step :: rest)) :
    ({ e with strategy := Strategy.replay ⟨T, e.trace.steps.size + 1, bound⟩ }.record step).Replays
      T bound rest where
  strategy := by
    show Strategy.replay ⟨T, e.trace.steps.size + 1, bound⟩ =
      .replay ⟨T, (e.trace.steps.push step).size, bound⟩
    rw [Array.size_push]
  steps := by
    show T.steps.toList = (e.trace.steps.push step).toList ++ rest
    rw [Array.toList_push, List.append_assoc]
    exact h.steps

/-- The replaying strategy reads the next decision. -/
lemma Replays.nextStep {α : Type} (h : e.Replays T bound (step :: rest))
    (read : TraceStep → Except Divergence α) :
    ReplayStrategy.nextStep ⟨T, e.trace.steps.size, bound⟩ read =
      ((read step).mapError (.replayDivergence e.trace.steps.size),
        ⟨T, e.trace.steps.size + 1, bound⟩) := by
  simp only [ReplayStrategy.nextStep, h.getElem?]

lemma Replays.nextBool {b : Bool} (h : e.Replays T bound (.boolean b :: rest))
    (maxValue : UInt64) : Scheduler.nextBool e.strategy maxValue =
      (.ok b, .replay ⟨T, e.trace.steps.size + 1, bound⟩) := by
  rw [h.strategy]
  show (ReplayStrategy.nextStep _ _).map id Strategy.replay = _
  rw [h.nextStep]
  rfl

lemma Replays.nextInt {n maxValue : UInt64} (h : e.Replays T bound (.integer n :: rest))
    (lt : maxValue = 0 ∨ n < maxValue) : Scheduler.nextInt e.strategy maxValue =
      (.ok n, .replay ⟨T, e.trace.steps.size + 1, bound⟩) := by
  have read : ReplayStrategy.readInt maxValue (.integer n) = .ok n := if_pos (by simpa using lt)
  rw [h.strategy]
  show (ReplayStrategy.nextStep _ _).map id Strategy.replay = _
  rw [h.nextStep, read]
  rfl

lemma Replays.nextOperation {ops : List Operation} (h : e.Replays T bound (.schedule id :: rest))
    {op : Operation} (mem : op ∈ ops) (enabled : op.isEnabled = true) (eq : op.id = id) :
    Scheduler.nextOperation e.strategy ops =
      (.ok (some id), .replay ⟨T, e.trace.steps.size + 1, bound⟩) := by
  have any : ops.any (·.isEnabled) = true := List.any_eq_true.mpr ⟨op, mem, enabled⟩
  have read : ReplayStrategy.readOperation ops (.schedule id) = .ok (some id) :=
    if_pos (List.any_eq_true.mpr ⟨op, mem, by simp [eq, enabled]⟩)
  rw [h.strategy]
  show (if ops.any (·.isEnabled) then ReplayStrategy.nextStep _ _ else _).map _ Strategy.replay = _
  rw [if_pos any, h.nextStep, read]
  rfl

/-- What is played can be performed again from its decisions. -/
lemma perform_replay (P : a.Performs id bug steps s bug') (ignores : a.IgnoresRaces)
    (replays : e.Replays T bound (steps ++ rest)) (same : e.bug = bug) :
    ∃ f, e.perform id a = (.ok (), f) ∧ f.state = s ∧ f.bug = bug' ∧
      f.trace = e.trace.extend steps ∧ f.Replays T bound rest := by
  induction P generalizing e with
  | @done s _ => exact ⟨{ e with state := s }, rfl, rfl, same, rfl, replays.strategy, replays.steps⟩
  | @chooseBool _ _ _ _ b _ _ _ _ ih =>
    rw [perform, replays.nextBool]
    exact ih (ignores b) replays.record same
  | @chooseInt _ _ _ _ n _ _ _ lt _ ih =>
    rw [perform, replays.nextInt lt]
    exact ih (ignores n) replays.record same
  | send _ ih =>
    rw [perform]
    exact ih ignores ⟨replays.strategy, replays.steps⟩ same
  | dequeue _ ih =>
    rw [perform]
    exact ih ignores ⟨replays.strategy, replays.steps⟩ same
  | @report message _ _ _ _ _ _ ih =>
    rw [perform]
    exact ih ignores ⟨replays.strategy, replays.steps⟩ (congrArg (·.or (some message)) same)
  | @inspect races next _ _ _ _ _ ih =>
    -- The replay may have seen other races, but what follows is the same.
    have eq : next id e.monitor.count = next id races :=
      (ignores id e.monitor.count).1.trans (ignores id races).1.symm
    rw [perform, eq]
    exact ih (ignores id races).2 replays same

/-- What is between the beginning and the end of a run is a play, and its decisions have gone into
the trace. -/
def IsPlay (program : Program σ) (bound fuel : Nat) (fair : Bool) (e f : Execution σ Strategy) :
    Prop :=
  ∃ steps, program.Plays bound fuel e.trace.steps.size e.state steps f.bug ∧
    f.trace = e.trace.extend steps ∧ f.IsLive bound fair

/-- How a run under a live strategy comes to its end. -/
inductive Ends (program : Program σ) (bound fuel : Nat) (fair : Bool) (e : Execution σ Strategy) :
    Ending → Execution σ Strategy → Prop where
  | quiet {f : Execution σ Strategy} {n : Nat} :
    f.bug = none → f.strategy.Runs bound fair n → Ends program bound fuel fair e .quiet f
  | bug {f : Execution σ Strategy} {message : String} :
    f.bug = some message → IsPlay program bound fuel fair e f → Ends program bound fuel fair e .bug f
  | bound {f : Execution σ Strategy} :
    f.bug = none → IsPlay program bound fuel fair e f → Ends program bound fuel fair e .bound f
  | failed {f : Execution σ Strategy} {error : StrategyError} :
    Ends program bound fuel fair e (.failed error) f
  | unfinished {f : Execution σ Strategy} :
    Ends program bound fuel fair e .unfinished f

/-- One more operation before a run that comes to its end. -/
lemma Ends.cons {g : Execution σ Strategy} {op : Operation}
    (more : reachesBound bound e.trace.steps.size = false) (mem : op ∈ program.operations e.state)
    (enabled : op.isEnabled = true)
    (performs : (program.execute e.state op.id).Performs op.id none steps g.state none)
    (trace : g.trace = (e.trace.push (.schedule op.id)).extend steps)
    (ends : Ends program bound fuel fair g ending f) :
    Ends program bound (fuel + 1) fair e ending f := by
  have play : IsPlay program bound fuel fair g f → IsPlay program bound (fuel + 1) fair e f := by
    rintro ⟨rest, plays, trace', live⟩
    have size : g.trace.steps.size = e.trace.steps.size + 1 + steps.length := by
      rw [trace, Trace.size_extend, Trace.push, Array.size_push]
    rw [size] at plays
    refine ⟨_, .next more mem enabled performs plays, ?_, live⟩
    rw [trace', trace, ← Trace.extend_append]
    rfl
  cases ends with
  | quiet none runs => exact .quiet none runs
  | bug some p => exact .bug some (play p)
  | bound none p => exact .bound none (play p)
  | failed => exact .failed
  | unfinished => exact .unfinished

/-- A run under a live strategy is a play with the decisions in its trace, unless it fails. -/
lemma ends_of_run (live : e.IsLive bound fair) (clean : e.bug = none)
    (h : e.run program fuel = (ending, f)) : Ends program bound fuel fair e ending f := by
  induction fuel generalizing e with
  | zero =>
    cases h
    exact .unfinished
  | succ fuel ih =>
    have reached : Scheduler.reachedMaxSteps e.strategy = reachesBound bound e.trace.steps.size :=
      Strategy.Runs.reachedMaxSteps live
    rw [run, reached] at h
    split at h
    · next bounded =>
      cases h
      refine .bound clean ⟨[], ?_, rfl, live⟩
      rw [clean]
      exact .bound bounded
    next more =>
    have more := Bool.eq_false_of_not_eq_true more
    obtain ⟨s', answer, runs, -⟩ | ⟨op, mem, enabled, s', answer, runs⟩ :=
      Strategy.Runs.nextOperation live (program.operations e.state)
    · have answer : Scheduler.nextOperation e.strategy (program.operations e.state) =
        (.ok none, s') := answer
      rw [answer] at h
      cases h
      exact .quiet clean runs
    · have answer : Scheduler.nextOperation e.strategy (program.operations e.state) =
        (.ok (some op.id), s') := answer
      rw [answer] at h
      simp only at h
      split at h
      · cases h
        exact .failed
      · next g performed =>
        obtain ⟨steps, performs, trace, live⟩ := performs_of_perform (isLive_record runs) performed
        have performs : (program.execute e.state op.id).Performs op.id none steps g.state g.bug :=
          clean ▸ performs
        -- Only an operation that has reported nothing is followed by another.
        cases bug : g.bug with
        | none =>
          rw [bug] at performs
          rw [bug, if_neg (by simp)] at h
          exact (ih live bug h).cons more mem enabled performs trace
        | some message =>
          rw [bug, Option.isSome_some, if_pos rfl] at h
          cases h
          refine .bug bug ⟨.schedule op.id :: steps, ?_, trace, live⟩
          rw [bug] at performs ⊢
          exact .bug more mem enabled performs

/-- The replaying strategy counts the decisions that it has repeated. -/
lemma Replays.reachedMaxSteps (h : e.Replays T bound rest) :
    Scheduler.reachedMaxSteps e.strategy = reachesBound bound e.trace.steps.size := by
  rw [h.strategy]
  rfl

/-- An operation that was played is the first one that the replay runs. -/
lemma run_replay_cons {s' : σ} {op : Operation} (replays :
      e.Replays T bound (.schedule op.id :: (steps ++ rest)))
    (ignores : program.IgnoresRaces) (state : e.state = s) (clean : e.bug = none)
    (more : reachesBound bound e.trace.steps.size = false) (mem : op ∈ program.operations s)
    (enabled : op.isEnabled = true)
    (performs : (program.execute s op.id).Performs op.id none steps s' bug) (fuel : Nat) :
    ∃ g, e.run program (fuel + 1) = (if g.bug.isSome then (.bug, g) else g.run program fuel) ∧
      g.state = s' ∧ g.bug = bug ∧ g.trace = e.trace.extend (.schedule op.id :: steps) ∧
      g.Replays T bound rest := by
  subst state
  obtain ⟨g, performed, state, bug, trace, replays'⟩ :=
    perform_replay performs (ignores _ _) replays.record clean
  refine ⟨g, ?_, state, bug, trace, replays'⟩
  have executed : execute program op.id
      ({ e with strategy := Strategy.replay ⟨T, e.trace.steps.size + 1, bound⟩ }.record
        (.schedule op.id)) = (.ok (), g) := performed
  rw [run, replays.reachedMaxSteps, more, if_neg Bool.false_ne_true,
    replays.nextOperation mem enabled rfl]
  simp only [executed]

/-- A play is run again by the strategy that replays its decisions. -/
lemma run_replay {n fuel' : Nat} (P : program.Plays bound fuel n s steps bug)
    (ignores : program.IgnoresRaces) (replays : e.Replays T bound steps) (state : e.state = s)
    (clean : e.bug = none) (size : e.trace.steps.size = n) (le : fuel ≤ fuel') :
    ∃ f, e.run program fuel' = (if bug.isSome then .bug else .bound, f) ∧ f.bug = bug ∧
      f.trace = e.trace.extend steps ∧ f.Replays T bound [] := by
  induction P generalizing e fuel' with
  | bound reached =>
    obtain ⟨fuel', rfl⟩ := Nat.exists_eq_succ_of_ne_zero (Nat.ne_zero_of_lt le)
    refine ⟨e, ?_, clean, rfl, replays⟩
    rw [run, replays.reachedMaxSteps, size, reached, if_pos rfl]
    rfl
  | @bug _ _ _ _ op steps message more mem enabled performs =>
    obtain ⟨fuel', rfl⟩ := Nat.exists_eq_succ_of_ne_zero (Nat.ne_zero_of_lt le)
    have replays : e.Replays T bound (.schedule op.id :: (steps ++ [])) := by
      rwa [List.append_nil]
    obtain ⟨g, ran, -, bug, trace, replays⟩ :=
      run_replay_cons replays ignores state clean (size ▸ more) mem enabled performs fuel'
    refine ⟨g, ?_, bug, trace, replays⟩
    rw [ran, bug, Option.isSome_some, if_pos rfl, if_pos rfl]
  | @next _ n _ _ _ steps rest bug more mem enabled performs _ ih =>
    obtain ⟨fuel', rfl⟩ := Nat.exists_eq_succ_of_ne_zero (Nat.ne_zero_of_lt le)
    obtain ⟨g, ran, state, clean, trace, replays⟩ :=
      run_replay_cons replays ignores state clean (size ▸ more) mem enabled performs fuel'
    -- The replay stands where the play stood, as the bound counts the decisions in the trace.
    have size : g.trace.steps.size = n + 1 + steps.length := by
      rw [trace, Trace.size_extend, List.length_cons, size, Nat.add_assoc, Nat.add_comm 1]
    obtain ⟨f, ran', bug, trace', replays⟩ := ih replays state clean size (Nat.le_of_succ_le_succ le)
    refine ⟨f, ?_, bug, ?_, replays⟩
    · rw [ran, clean, if_neg (by simp), ran']
    · rw [trace', trace, ← Trace.extend_append, List.cons_append]

end Execution

/-- No step of the register clients depends on the races found so far. -/
lemma RegisterRace.ignoresRaces (clients : Nat) : (program clients).IgnoresRaces := by
  intro s id
  show (execute s id).IgnoresRaces
  rw [execute]
  split
  · trivial
  · split
    · simp only [sendNext, Action.IgnoresRaces]
      split <;> trivial
    · split
      · simp only [startActor]
        split
        · trivial
        · exact fun _ => trivial
      · split
        · simp only [receiveNext, Action.IgnoresRaces]
          split <;> trivial
        · trivial

end Interleaving
