import Interleaving.Trace

/-!
# Errors of strategies

Errors of a scheduling strategy are never errors of the program under test: they end the session.
-/

namespace Interleaving

/-- How a program departs from the trace that it is to repeat. -/
inductive Divergence where
  /-- The operation that the trace runs cannot run. -/
  | notEnabled (id : OperationId)
  /-- An operation is to be run and the trace holds something else. -/
  | expectedOperation (found : TraceStep)
  /-- A truth value is asked for and the trace holds something else. -/
  | expectedBoolean (found : TraceStep)
  /-- A number is asked for and the trace holds something else. -/
  | expectedInteger (found : TraceStep)
  /-- The number in the trace is not below the bound that is asked for. -/
  | outOfRange (value bound : UInt64)
deriving DecidableEq

/-- The text of a divergence. -/
def Divergence.text : Divergence → String
  | notEnabled id => s!"operation {id} is not enabled"
  | expectedOperation found => s!"expected an operation, trace has {found.text}"
  | expectedBoolean found => s!"expected a boolean, trace has {found.text}"
  | expectedInteger found => s!"expected an integer, trace has {found.text}"
  | outOfRange value bound => s!"integer {value} is out of range 0..{bound}"

/-- Why a strategy, or a program at its request, cannot go on. -/
inductive StrategyError where
  /-- The program departs from the trace at a step. -/
  | replayDivergence (step : Nat) (cause : Divergence)
  /-- The trace has ended and the program has not. -/
  | traceExhausted (steps : Nat)
  /-- Something that should never happen has happened. -/
  | invariant (message : String)
deriving DecidableEq

/-- The text of an error. -/
def StrategyError.message : StrategyError → String
  | replayDivergence step cause => s!"replay diverged at step {step}: {cause.text}"
  | traceExhausted steps =>
    s!"replay trace exhausted after {steps} steps with operations still enabled"
  | invariant message => s!"scheduler invariant violated: {message}"

end Interleaving
