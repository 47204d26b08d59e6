import Interleaving.Schedule.Run
import Interleaving.Strategy.Scheduler

/-!
# Strategies without memory

Each run has a fresh schedule and fresh inputs, drawn from one seeded source.
-/

namespace Interleaving

/-- A strategy that takes a new generator for every run. -/
structure RenewingStrategy where
  generator : ScheduleGenerator
  inputs : InputGenerator
  rng : Rng
  maxSteps : Nat
  fair : Bool
  scheduledSteps : Nat
  /-- The length of the longest run so far. -/
  scheduleLength : Nat

namespace RenewingStrategy

/-- A strategy before its first run. A bound of `0` steps is no bound. -/
def ofKind (kind : ScheduleKind) (maxSteps : Nat) (fair : Bool) (seed : UInt64) :
    RenewingStrategy :=
  let (generator, rng) := kind.generator (.ofSeed seed)
  let (inputs, rng) := InputGenerator.ofRng rng
  ⟨generator, inputs, rng, maxSteps, fair, 0, 0⟩

instance : Scheduler RenewingStrategy where
  nextOperation s ops :=
    match Operation.enabledAmong ops with
    | [] => (.ok none, s)
    | enabled =>
      let (id, generator) := s.generator.next enabled
      (id.map some, { s with generator, scheduledSteps := s.scheduledSteps + 1 })
  nextBool s maxValue :=
    let (b, inputs) := s.inputs.nextBool maxValue
    (.ok b, { s with inputs, scheduledSteps := s.scheduledSteps + 1 })
  nextInt s maxValue :=
    let (n, inputs) := s.inputs.nextInt maxValue
    (.ok n, { s with inputs, scheduledSteps := s.scheduledSteps + 1 })
  prepare s :=
    let scheduleLength := max s.scheduleLength s.scheduledSteps
    let (generator, rng) := s.generator.renewed s.rng
    let (inputs, rng) := InputGenerator.ofRng rng
    (true,
      { s with
        generator := generator.startIteration scheduleLength
        inputs, rng, scheduleLength, scheduledSteps := 0 })
  scheduledSteps s := s.scheduledSteps
  reachedMaxSteps s := reachesBound s.maxSteps s.scheduledSteps
  isFair s := s.fair
  description s := s.generator.description
  observe s _ := s
  stats _ := none

end RenewingStrategy

end Interleaving
