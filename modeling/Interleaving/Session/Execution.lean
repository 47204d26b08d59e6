import Interleaving.Program.Action
import Interleaving.Race
import Interleaving.Session.Observer
import Interleaving.Strategy.Scheduler

/-!
# Runs

One run of a program under a scheduler. The scheduler picks an operation and answers the requests
that the program makes while it runs, all of which is written into the trace. The run ends when
nothing can run, when a bug is reported, or at the scheduler's bound on steps.
-/

namespace Interleaving

/-- A run under way: the program's state, the scheduler, and what is noted of the run. -/
structure Execution (σ S : Type) where
  state : σ
  strategy : S
  trace : Trace
  monitor : RaceMonitor
  observer : RunObserver
  /-- The first bug reported. -/
  bug : Option String

namespace Execution

variable {σ S : Type}

/-- Takes note of a decision. -/
def record (e : Execution σ S) (step : TraceStep) : Execution σ S :=
  { e with trace := e.trace.push step }

/-- Takes note of a bug, unless there is one already. -/
def reportBug (e : Execution σ S) (message : String) : Execution σ S :=
  { e with bug := e.bug.or (some message) }

variable [Scheduler S]

/-- Does what the program does when the operation `current` is run. -/
def perform (current : OperationId) :
    Action σ → Execution σ S → Except StrategyError Unit × Execution σ S
  | .done state, e => (.ok (), { e with state })
  | .fail state error, e => (.error error, { e with state })
  | .chooseBool maxValue unanswered next, e =>
    match Scheduler.nextBool e.strategy maxValue with
    | (.ok b, strategy) => perform current (next b) ({ e with strategy }.record (.boolean b))
    | (.error error, strategy) => (.error error, { e with strategy, state := unanswered })
  | .chooseInt maxValue unanswered next, e =>
    match Scheduler.nextInt e.strategy maxValue with
    | (.ok n, strategy) => perform current (next n) ({ e with strategy }.record (.integer n))
    | (.error error, strategy) => (.error error, { e with strategy, state := unanswered })
  | .send sender location receiver clock next, e =>
    perform current next
      { e with monitor := (e.monitor.onSend sender location receiver clock).2 }
  | .dequeue receiver event next, e =>
    perform current next { e with observer := e.observer.onDequeue receiver event }
  | .report message next, e => perform current next (e.reportBug message)
  | .inspect next, e => perform current (next current e.monitor.count) e

/-- Runs an operation of a program. -/
def execute (program : Program σ) (id : OperationId) (e : Execution σ S) :
    Except StrategyError Unit × Execution σ S :=
  e.perform id (program.execute e.state id)

/-- How a run comes to its end. -/
inductive Ending where
  /-- Nothing can run any more. -/
  | quiet
  /-- A bug is reported. -/
  | bug
  /-- The run has as many decisions as are allowed. -/
  | bound
  /-- The scheduler or the program cannot go on. -/
  | failed (error : StrategyError)
  /-- The run has not come to its end. -/
  | unfinished
deriving DecidableEq

/-- Goes on with a run for at most `fuel` operations. -/
def run (program : Program σ) : Nat → Execution σ S → Ending × Execution σ S
  | 0, e => (.unfinished, e)
  | fuel + 1, e =>
    if Scheduler.reachedMaxSteps e.strategy then (.bound, e)
    else
      match Scheduler.nextOperation e.strategy (program.operations e.state) with
      | (.error error, strategy) => (.failed error, { e with strategy })
      | (.ok none, strategy) => (.quiet, { e with strategy })
      | (.ok (some id), strategy) =>
        match ({ e with strategy }.record (.schedule id)).execute program id with
        | (.error error, e) => (.failed error, e)
        | (.ok (), e) => if e.bug.isSome then (.bug, e) else run program fuel e

end Execution

end Interleaving
