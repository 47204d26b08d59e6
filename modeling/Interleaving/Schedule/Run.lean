import Interleaving.Schedule.Generator
import Interleaving.Schedule.Input

/-!
# Generators of runs

A schedule and the inputs that go with it, which together determine a run. This is what a search by
feedback keeps and mutates.
-/

namespace Interleaving

/-- A source of all that a run leaves open. -/
structure RunGenerator where
  input : InputGenerator
  schedule : ScheduleGenerator

namespace RunGenerator

/-- Back to the start of the run. -/
def startIteration (scheduleLength : Nat) (g : RunGenerator) : RunGenerator :=
  ⟨g.input.rewind, g.schedule.startIteration scheduleLength⟩

/-- Other inputs and another schedule. -/
def mutateBoth (g : RunGenerator) (rng : Rng) : RunGenerator × Rng :=
  let (input, rng) := g.input.mutated rng
  let (schedule, rng) := g.schedule.mutated rng
  (⟨input, schedule⟩, rng)

/-- Other inputs and the same schedule. -/
def mutateInput (g : RunGenerator) (rng : Rng) : RunGenerator × Rng :=
  let (input, rng) := g.input.mutated rng
  let (schedule, rng) := g.schedule.copied rng
  (⟨input, schedule⟩, rng)

/-- The same inputs and another schedule. -/
def mutateSchedule (g : RunGenerator) (rng : Rng) : RunGenerator × Rng :=
  let (input, rng) := g.input.copied rng
  let (schedule, rng) := g.schedule.mutated rng
  (⟨input, schedule⟩, rng)

/-- The same inputs and the same schedule, at their start. -/
def copied (g : RunGenerator) (rng : Rng) : RunGenerator × Rng :=
  let (input, rng) := g.input.copied rng
  let (schedule, rng) := g.schedule.copied rng
  (⟨input, schedule⟩, rng)

/-- Fresh inputs and a fresh schedule of the same kind. -/
def renewed (g : RunGenerator) (rng : Rng) : RunGenerator × Rng :=
  let (input, rng) := InputGenerator.ofRng rng
  let (schedule, rng) := g.schedule.renewed rng
  (⟨input, schedule⟩, rng)

end RunGenerator

end Interleaving
