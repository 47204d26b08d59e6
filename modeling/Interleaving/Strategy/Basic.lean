import Interleaving.Strategy.Feedback
import Interleaving.Strategy.Guided
import Interleaving.Strategy.Renewing
import Interleaving.Strategy.Replay

/-!
# The strategies of a session

All strategies that a session can be configured with, guided ones among them.
-/

namespace Interleaving

/-- A strategy of any kind. -/
inductive Strategy where
  | renewing (s : RenewingStrategy)
  | feedback (s : FeedbackStrategy)
  | replay (s : ReplayStrategy)
  | guided (guidance : Guidance) (inner : Strategy)

namespace Strategy

/-- Picks one of the operations that can run; nothing if none can. -/
def nextOperation (ops : List Operation) :
    Strategy → Except StrategyError (Option OperationId) × Strategy
  | renewing s => (Scheduler.nextOperation s ops).map id renewing
  | feedback s => (Scheduler.nextOperation s ops).map id feedback
  | replay s => (Scheduler.nextOperation s ops).map id replay
  | guided g inner => (inner.nextOperation (g.shown ops)).map id (guided g)

/-- A truth value that is true once in so many times. -/
def nextBool (maxValue : UInt64) : Strategy → Except StrategyError Bool × Strategy
  | renewing s => (Scheduler.nextBool s maxValue).map id renewing
  | feedback s => (Scheduler.nextBool s maxValue).map id feedback
  | replay s => (Scheduler.nextBool s maxValue).map id replay
  | guided g inner => (inner.nextBool maxValue).map id (guided g)

/-- A number below a bound. -/
def nextInt (maxValue : UInt64) : Strategy → Except StrategyError UInt64 × Strategy
  | renewing s => (Scheduler.nextInt s maxValue).map id renewing
  | feedback s => (Scheduler.nextInt s maxValue).map id feedback
  | replay s => (Scheduler.nextInt s maxValue).map id replay
  | guided g inner => (inner.nextInt maxValue).map id (guided g)

/-- Gets ready for the next run; false if there is nothing left to explore. -/
def prepare : Strategy → Bool × Strategy
  | renewing s => (Scheduler.prepare s).map id renewing
  | feedback s => (Scheduler.prepare s).map id feedback
  | replay s => (Scheduler.prepare s).map id replay
  | guided g inner => inner.prepare.map id (guided g)

/-- The number of decisions in this run. -/
def scheduledSteps : Strategy → Nat
  | renewing s => Scheduler.scheduledSteps s
  | feedback s => Scheduler.scheduledSteps s
  | replay s => Scheduler.scheduledSteps s
  | guided _ inner => inner.scheduledSteps

/-- Whether the run has as many decisions as are allowed. -/
def reachedMaxSteps : Strategy → Bool
  | renewing s => Scheduler.reachedMaxSteps s
  | feedback s => Scheduler.reachedMaxSteps s
  | replay s => Scheduler.reachedMaxSteps s
  | guided _ inner => inner.reachedMaxSteps

/-- Whether no operation can be passed over forever. -/
def isFair : Strategy → Bool
  | renewing s => Scheduler.isFair s
  | feedback s => Scheduler.isFair s
  | replay s => Scheduler.isFair s
  | guided _ inner => inner.isFair

/-- The name of the strategy. -/
def description : Strategy → String
  | renewing s => Scheduler.description s
  | feedback s => Scheduler.description s
  | replay s => Scheduler.description s
  | guided _ inner => Guidance.description inner.description

/-- Learns from a finished run. -/
def observe (summary : RunSummary) : Strategy → Strategy
  | renewing s => renewing (Scheduler.observe s summary)
  | feedback s => feedback (Scheduler.observe s summary)
  | replay s => replay (Scheduler.observe s summary)
  | guided g inner => guided (g.observe summary) (inner.observe summary)

/-- What the strategy tells of itself. -/
def stats : Strategy → Option FeedbackStats
  | renewing s => Scheduler.stats s
  | feedback s => Scheduler.stats s
  | replay s => Scheduler.stats s
  | guided g inner => some (g.stats inner.stats)

instance : Scheduler Strategy where
  nextOperation s ops := s.nextOperation ops
  nextBool s maxValue := s.nextBool maxValue
  nextInt s maxValue := s.nextInt maxValue
  prepare := prepare
  scheduledSteps := scheduledSteps
  reachedMaxSteps := reachedMaxSteps
  isFair := isFair
  description := description
  observe s summary := s.observe summary
  stats := stats

end Strategy

end Interleaving
