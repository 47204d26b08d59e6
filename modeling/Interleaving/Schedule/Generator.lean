import Interleaving.Schedule.Pct
import Interleaving.Schedule.Pctcp
import Interleaving.Schedule.Random

/-!
# Schedule generators

The three kinds of schedules behind one interface. A generator is a value: copies, mutations and
renewals leave it as it is, so it can be kept for as long as it is wanted.
-/

namespace Interleaving

/-- A source of scheduling decisions. -/
inductive ScheduleGenerator where
  | random (g : RandomSchedule)
  | pct (g : PctSchedule)
  | pctcp (g : PctcpSchedule)

namespace ScheduleGenerator

/-- Back to the first decision. The runs so far had up to `scheduleLength` steps. -/
def startIteration (scheduleLength : Nat) : ScheduleGenerator → ScheduleGenerator
  | random g => random g.startIteration
  | pct g => pct (g.startIteration scheduleLength)
  | pctcp g => pctcp (g.startIteration scheduleLength)

/-- Picks one of the operations that can run. -/
def next (enabled : List Operation) :
    ScheduleGenerator → Except StrategyError OperationId × ScheduleGenerator
  | random g => (g.next enabled).map id random
  | pct g => (g.next enabled).map id pct
  | pctcp g => (g.next enabled).map id pctcp

/-- The same kind of schedule with fresh streams. -/
def renewed (rng : Rng) : ScheduleGenerator → ScheduleGenerator × Rng
  | random _ => (RandomSchedule.ofRng rng).map random id
  | pct g => (g.renewed rng).map pct id
  | pctcp g => (g.renewed rng).map pctcp id

/-- The same decisions again. -/
def copied (rng : Rng) : ScheduleGenerator → ScheduleGenerator × Rng
  | random g => (g.copied rng).map random id
  | pct g => (g.copied rng).map pct id
  | pctcp g => (g.copied rng).map pctcp id

/-- The same decisions but for some bursts. -/
def mutated (rng : Rng) : ScheduleGenerator → ScheduleGenerator × Rng
  | random g => (g.mutated rng).map random id
  | pct g => (g.mutated rng).map pct id
  | pctcp g => (g.mutated rng).map pctcp id

/-- The name of the schedule. -/
def description : ScheduleGenerator → String
  | random _ => RandomSchedule.description
  | pct g => g.description
  | pctcp g => g.description

end ScheduleGenerator

/-- Which schedule to generate. -/
inductive ScheduleKind where
  | random
  | pct (maxSwitchPoints : Nat) (sampling : ChangePointSampling)
  | pctcp (maxSwitchPoints : Nat)
deriving DecidableEq

/-- A generator with fresh streams. -/
def ScheduleKind.generator (rng : Rng) : ScheduleKind → ScheduleGenerator × Rng
  | random => (RandomSchedule.ofRng rng).map .random id
  | pct maxSwitchPoints sampling => (PctSchedule.ofRng maxSwitchPoints sampling rng).map .pct id
  | pctcp maxSwitchPoints => (PctcpSchedule.ofRng maxSwitchPoints rng).map .pctcp id

end Interleaving
