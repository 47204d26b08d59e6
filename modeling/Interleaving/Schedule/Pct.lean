import Interleaving.Schedule.ChangePoint
import Interleaving.Strategy.Error

/-!
# Priority schedules

Operations get a priority when they are first seen, and of those that can run the one with the
highest priority does. At a few change points the operation that would run is first given the
lowest priority.
-/

namespace Interleaving

/-- How change points are drawn. -/
inductive ChangePointSampling where
  /-- All at once, from a shuffled list of steps. -/
  | shuffled
  /-- One at a time, at geometric distances. -/
  | geometric
deriving DecidableEq

/-- The name of a way to draw change points. -/
def ChangePointSampling.text : ChangePointSampling → String
  | shuffled => "shuffled"
  | geometric => "geometric"

/-- The change points that are still ahead. -/
inductive ChangePoints where
  /-- All of them. -/
  | fixed (points : SortedSet Nat)
  /-- The next one, if there is one. -/
  | next (point : Option Nat)
deriving DecidableEq

namespace ChangePoints

/-- Whether there is a change at a step. -/
def contains : ChangePoints → Nat → Bool
  | fixed points, step => points.contains step
  | next point, step => point == some step

/-- Moves the change at a step to a later one. -/
def postpone : ChangePoints → Nat → ChangePoints
  | fixed points, step => fixed (ChangePoint.postpone points step)
  | next _, step => next (some (step + 1))

end ChangePoints

/-- A schedule by priorities of operations. -/
structure PctSchedule where
  priorityChoices : ChoiceStream
  switchChoices : ChoiceStream
  maxSwitchPoints : Nat
  sampling : ChangePointSampling
  /-- The length of the longest run so far. -/
  scheduleLength : Nat
  /-- The operations seen in this run, highest priority first. -/
  prioritized : List OperationId
  changePoints : ChangePoints
  /-- The number of demotions in this run. -/
  inversions : Nat
  /-- The number of decisions in this run. -/
  steps : Nat

namespace PctSchedule

/-- Draws the change points that are due: all at the start of a run, or the next one. -/
def sampleChangePoints (g : PctSchedule) : PctSchedule :=
  match g.sampling with
  | .shuffled =>
    let (points, switchChoices) :=
      ChangePoint.sampleAll g.maxSwitchPoints g.scheduleLength g.switchChoices
    { g with changePoints := .fixed points, switchChoices }
  | .geometric =>
    let (point, switchChoices) := ChangePoint.sampleNext (g.maxSwitchPoints - g.inversions)
      g.scheduleLength g.steps g.switchChoices
    { g with changePoints := .next point, switchChoices }

/-- Back to the first decision. The runs so far had up to `scheduleLength` steps. -/
def startIteration (g : PctSchedule) (scheduleLength : Nat) : PctSchedule :=
  sampleChangePoints
    { g with
      priorityChoices := g.priorityChoices.rewind
      switchChoices := g.switchChoices.rewind
      scheduleLength := max g.scheduleLength scheduleLength
      prioritized := []
      inversions := 0
      steps := 0 }

/-- A schedule at the start of its streams. -/
def ofStreams (maxSwitchPoints : Nat) (sampling : ChangePointSampling) (scheduleLength : Nat)
    (priorityChoices switchChoices : ChoiceStream) : PctSchedule :=
  startIteration
    ⟨priorityChoices, switchChoices, maxSwitchPoints, sampling, scheduleLength, [], .next none, 0, 0⟩
    scheduleLength

/-- A schedule with fresh streams. -/
def ofRng (maxSwitchPoints : Nat) (sampling : ChangePointSampling) (rng : Rng) :
    PctSchedule × Rng :=
  let (priorityChoices, rng) := ChoiceStream.ofRng rng
  let (switchChoices, rng) := ChoiceStream.ofRng rng
  (ofStreams maxSwitchPoints sampling 0 priorityChoices switchChoices, rng)

/-- The schedule with other streams. -/
def withStreams (g : PctSchedule) (priorityChoices switchChoices : ChoiceStream) : PctSchedule :=
  ofStreams g.maxSwitchPoints g.sampling g.scheduleLength priorityChoices switchChoices

/-- Gives an operation that has not been seen yet a priority: any but the highest, unless it is the
first. -/
def discover (g : PctSchedule) (id : OperationId) : PctSchedule :=
  if id ∈ g.prioritized then g
  else if g.prioritized.isEmpty then { g with prioritized := [id] }
  else
    let (i, priorityChoices) := g.priorityChoices.nextIndex g.prioritized.length
    { g with priorityChoices, prioritized := g.prioritized.insertIdx (i + 1) id }

/-- The operation of highest priority among those that can run. -/
def highest? (g : PctSchedule) (enabled : List Operation) : Option OperationId :=
  g.prioritized.find? fun id => enabled.any (·.id == id)

/-- Gives an operation the lowest priority. -/
def demote (g : PctSchedule) (id : OperationId) : PctSchedule :=
  { g with
    prioritized := g.prioritized.filter (· != id) ++ [id]
    inversions := g.inversions + 1 }

/-- Makes the change that is due at this step, if one is. Where only one operation can run, a
change would have no effect and waits for a later step. -/
def change (g : PctSchedule) (enabled : List Operation) : PctSchedule :=
  if !g.changePoints.contains g.steps then g
  else if enabled.length == 1 then { g with changePoints := g.changePoints.postpone g.steps }
  else
    match g.highest? enabled with
    | none => g
    | some id =>
      match g.sampling with
      | .shuffled => g.demote id
      | .geometric => (g.demote id).sampleChangePoints

/-- Picks one of the operations. -/
def next (g : PctSchedule) (enabled : List Operation) :
    Except StrategyError OperationId × PctSchedule :=
  let g := (enabled.foldl (fun g op => g.discover op.id) g).change enabled
  match g.highest? enabled with
  | some id => (.ok id, { g with steps := g.steps + 1 })
  | none => (.error (.invariant "enabled operation missing from priority list"), g)

/-- The same kind of schedule with fresh streams. -/
def renewed (g : PctSchedule) (rng : Rng) : PctSchedule × Rng :=
  let (priorityChoices, rng) := ChoiceStream.ofRng rng
  let (switchChoices, rng) := ChoiceStream.ofRng rng
  (g.withStreams priorityChoices switchChoices, rng)

/-- The same decisions again. -/
def copied (g : PctSchedule) (rng : Rng) : PctSchedule × Rng :=
  let (priorityChoices, rng) := g.priorityChoices.copy rng
  let (switchChoices, rng) := g.switchChoices.copy rng
  (g.withStreams priorityChoices switchChoices, rng)

/-- The same decisions but for some bursts. -/
def mutated (g : PctSchedule) (rng : Rng) : PctSchedule × Rng :=
  let (priorityChoices, rng) := g.priorityChoices.mutate .schedule rng
  let (switchChoices, rng) := g.switchChoices.mutate .schedule rng
  (g.withStreams priorityChoices switchChoices, rng)

/-- The name of the schedule. -/
def description (g : PctSchedule) : String :=
  s!"pct[{g.maxSwitchPoints} switch points, {g.sampling.text}]"

end PctSchedule

end Interleaving
