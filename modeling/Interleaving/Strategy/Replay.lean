import Interleaving.Strategy.Scheduler

/-!
# Replay

A strategy that repeats the decisions of a trace and fails as soon as the program asks for something
else.
-/

namespace Interleaving

/-- A trace and the place reached in it. -/
structure ReplayStrategy where
  trace : Trace
  position : Nat
  maxSteps : Nat

namespace ReplayStrategy

/-- A strategy that stands at the start of a trace. The bound should be the one under which the
trace was recorded. -/
def ofTrace (trace : Trace) (maxSteps : Nat) : ReplayStrategy := ⟨trace, 0, maxSteps⟩

/-- Whether all decisions have been repeated. -/
def isFinished (s : ReplayStrategy) : Bool := s.trace.steps.size ≤ s.position

/-- Takes the next decision and gives what `read` makes of it. -/
def nextStep {α : Type} (s : ReplayStrategy) (read : TraceStep → Except Divergence α) :
    Except StrategyError α × ReplayStrategy :=
  match s.trace.steps[s.position]? with
  | some step =>
    ((read step).mapError (.replayDivergence s.position), { s with position := s.position + 1 })
  | none => (.error (.traceExhausted s.position), s)

/-- Reads a decision as the choice of one of the operations. -/
def readOperation (ops : List Operation) : TraceStep → Except Divergence (Option OperationId)
  | .schedule id =>
    if ops.any fun op => op.id == id && op.isEnabled then .ok (some id) else .error (.notEnabled id)
  | found => .error (.expectedOperation found)

/-- Reads a decision as a truth value. -/
def readBool : TraceStep → Except Divergence Bool
  | .boolean b => .ok b
  | found => .error (.expectedBoolean found)

/-- Reads a decision as a number below a bound; `0` is no bound. -/
def readInt (bound : UInt64) : TraceStep → Except Divergence UInt64
  | .integer n => if bound = 0 || n < bound then .ok n else .error (.outOfRange n bound)
  | found => .error (.expectedInteger found)

instance : Scheduler ReplayStrategy where
  nextOperation s ops :=
    if ops.any (·.isEnabled) then s.nextStep (readOperation ops) else (.ok none, s)
  nextBool s _ := s.nextStep readBool
  nextInt s maxValue := s.nextStep (readInt maxValue)
  prepare s := (false, { s with position := 0 })
  scheduledSteps s := s.position
  reachedMaxSteps s := reachesBound s.maxSteps s.position
  isFair s := s.trace.fairScheduling
  description s := s!"replay[{s.trace.steps.size} steps]"
  observe s _ := s
  stats _ := none

end ReplayStrategy

end Interleaving
