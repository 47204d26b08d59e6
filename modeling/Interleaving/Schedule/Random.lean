import Interleaving.Choice.Stream
import Interleaving.Strategy.Error

/-!
# Uniform schedules

Every operation that can run is equally likely to be next.
-/

namespace Interleaving

/-- A schedule that draws each decision from one stream. -/
structure RandomSchedule where
  choices : ChoiceStream

namespace RandomSchedule

/-- A schedule with a fresh stream. -/
def ofRng (rng : Rng) : RandomSchedule × Rng :=
  let (choices, rng) := ChoiceStream.ofRng rng
  (⟨choices⟩, rng)

/-- Back to the first decision. -/
def startIteration (g : RandomSchedule) : RandomSchedule := ⟨g.choices.rewind⟩

/-- Picks one of the operations. -/
def next (g : RandomSchedule) (enabled : List Operation) :
    Except StrategyError OperationId × RandomSchedule :=
  let (i, choices) := g.choices.nextIndex enabled.length
  (match enabled[i]? with
    | some op => .ok op.id
    | none => .error (.invariant "no enabled operation to pick"), ⟨choices⟩)

/-- The same decisions again. -/
def copied (g : RandomSchedule) (rng : Rng) : RandomSchedule × Rng :=
  let (choices, rng) := g.choices.copy rng
  (⟨choices⟩, rng)

/-- The same decisions but for some bursts. -/
def mutated (g : RandomSchedule) (rng : Rng) : RandomSchedule × Rng :=
  let (choices, rng) := g.choices.mutate .schedule rng
  (⟨choices⟩, rng)

/-- The name of the schedule. -/
def description : String := "random"

end RandomSchedule

end Interleaving
