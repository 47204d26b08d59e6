import Interleaving.Pattern.Event
import Interleaving.Strategy.Error

/-!
# Programs

A program under test is a state, the operations that each state offers, and what it does when one of
them is run. What it does is a tree of requests to the scheduler: the leaves hold the new state, and
a request for a value branches over the answers. So a program is a function of the answers, and the
same program can be run under any scheduler.
-/

namespace Interleaving

/-- What a program does when an operation is run. -/
inductive Action (σ : Type) where
  /-- The operation is over. -/
  | done (s : σ)
  /-- The operation cannot be run to its end. -/
  | fail (s : σ) (error : StrategyError)
  /-- Asks for a truth value that is true once in so many times. If there is no answer, the state is
  `unanswered`. -/
  | chooseBool (maxValue : UInt64) (unanswered : σ) (next : Bool → Action σ)
  /-- Asks for a number below a bound. If there is no answer, the state is `unanswered`. -/
  | chooseInt (maxValue : UInt64) (unanswered : σ) (next : UInt64 → Action σ)
  /-- Tells of a message sent, with the sender's clock after it. -/
  | send (sender : String) (location : UInt32) (receiver : String) (clock : VectorClock)
    (next : Action σ)
  /-- Tells of an event that an actor takes from its inbox. -/
  | dequeue (receiver : String) (event : Event) (next : Action σ)
  /-- Tells of a bug. -/
  | report (message : String) (next : Action σ)
  /-- Asks which operation is being run and how many pairs of sends have raced. -/
  | inspect (next : OperationId → Nat → Action σ)

/-- A program under test. -/
structure Program (σ : Type) where
  name : String
  initial : σ
  /-- The operations of a state, whether they can run or not. -/
  operations : σ → List Operation
  /-- What is done when an operation is run. -/
  execute : σ → OperationId → Action σ

/-- An error for an operation that the program does not have. -/
def StrategyError.unknownOperation (id : OperationId) : StrategyError :=
  .invariant s!"unknown operation {id}"

/-- An error for an operation that cannot run. -/
def StrategyError.notRunnable (id : OperationId) : StrategyError :=
  .invariant s!"operation {id} scheduled while disabled"

/-- An error for a receiver that does not exist. -/
def StrategyError.unknownActor (name : String) : StrategyError :=
  .invariant s!"no actor named {name}"

end Interleaving
