import Interleaving.Data.SortedSet
import Interleaving.Strategy.Error

/-!
# Schedulers

What a strategy must be able to do: decide at every scheduling point what runs next, answer the
program's requests for values, learn from finished runs and get ready for the next one. Every
answer comes with the strategy's new state, also where it is an error.
-/

namespace Interleaving

/-- What is known of a finished run. -/
structure RunSummary where
  /-- The number of decisions. -/
  steps : Nat
  /-- The pairs of receiver and event that were taken from inboxes. -/
  eventCoverage : SortedSet String
  /-- The states of the pattern's automaton that events led to. -/
  visitedStates : SortedSet Nat
  /-- Whether the pattern was matched at some point. -/
  patternMatched : Bool
  /-- A fingerprint of what each actor did. -/
  timelineHash : Option UInt64
  /-- The kinds of the interesting events taken from inboxes, in order. -/
  matchedEvents : List String
  bugFound : Bool

/-- The summary of a run in which nothing happened. -/
def RunSummary.empty : RunSummary := ⟨0, .empty, .empty, false, none, [], false⟩

/-- What a strategy that learns from feedback tells of itself. -/
structure FeedbackStats where
  totalSavedInputs : Nat
  currentInputIndex : Nat
  coveredStates : SortedSet Nat
  lastSavedScheduling : List String
deriving DecidableEq

/-- The statistics before anything is learnt. -/
def FeedbackStats.empty : FeedbackStats := ⟨0, 0, .empty, []⟩

/-- A scheduling strategy with states in `S`. -/
class Scheduler (S : Type) where
  /-- Picks one of the operations that can run; nothing if none can. -/
  nextOperation : S → List Operation → Except StrategyError (Option OperationId) × S
  /-- A truth value that is true once in so many times. -/
  nextBool : S → UInt64 → Except StrategyError Bool × S
  /-- A number below a bound. -/
  nextInt : S → UInt64 → Except StrategyError UInt64 × S
  /-- Gets ready for the next run; false if there is nothing left to explore. -/
  prepare : S → Bool × S
  /-- The number of decisions in this run. -/
  scheduledSteps : S → Nat
  /-- Whether the run has as many decisions as are allowed. -/
  reachedMaxSteps : S → Bool
  /-- Whether no operation can be passed over forever. -/
  isFair : S → Bool
  /-- The name of the strategy. -/
  description : S → String
  /-- Learns from a finished run. -/
  observe : S → RunSummary → S
  /-- What the strategy tells of itself. -/
  stats : S → Option FeedbackStats

/-- Whether a number of steps reaches a bound; `0` is no bound. -/
def reachesBound (maxSteps steps : Nat) : Bool := 0 < maxSteps && maxSteps ≤ steps

end Interleaving
