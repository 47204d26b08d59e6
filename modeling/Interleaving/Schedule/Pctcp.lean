import Interleaving.Data.SortedSet
import Interleaving.Schedule.Chain
import Interleaving.Schedule.ChangePoint
import Interleaving.Strategy.Error

/-!
# Priority schedules over chains

As in priority schedules of operations, but what has a priority is a chain of operations each of
which happens before the next. A chain runs its operations in order, and change points demote whole
chains.
-/

namespace Interleaving

/-- A schedule by priorities of chains. -/
structure PctcpSchedule where
  priorityChoices : ChoiceStream
  switchChoices : ChoiceStream
  maxSwitchPoints : Nat
  /-- The length of the longest run so far. -/
  scheduleLength : Nat
  /-- The operations offered in this run. -/
  chains : ChainSet
  /-- For each operation that has been offered since its actor last ran, its number in the chains. -/
  pending : SortedMap OperationId Nat
  /-- The numbers of the operations that have been run. -/
  scheduled : SortedSet Nat
  /-- The step of the next change, if there is one. -/
  nextChangePoint : Option Nat
  /-- The number of demotions in this run. -/
  inversions : Nat
  /-- The number of decisions in this run. -/
  steps : Nat

namespace PctcpSchedule

/-- The error that a fault in the chains amounts to. -/
def faultError (message : String) : StrategyError := .invariant s!"pctcp: {message}"

/-- Draws the step of the next change. -/
def sampleChangePoint (g : PctcpSchedule) : PctcpSchedule :=
  let (nextChangePoint, switchChoices) := ChangePoint.sampleNext (g.maxSwitchPoints - g.inversions)
    g.scheduleLength g.steps g.switchChoices
  { g with nextChangePoint, switchChoices }

/-- Back to the first decision. The runs so far had up to `scheduleLength` steps. -/
def startIteration (g : PctcpSchedule) (scheduleLength : Nat) : PctcpSchedule :=
  sampleChangePoint
    { g with
      priorityChoices := g.priorityChoices.rewind
      switchChoices := g.switchChoices.rewind
      scheduleLength := max g.scheduleLength scheduleLength
      chains := .empty
      pending := .empty
      scheduled := .empty
      inversions := 0
      steps := 0 }

/-- A schedule at the start of its streams. -/
def ofStreams (maxSwitchPoints scheduleLength : Nat)
    (priorityChoices switchChoices : ChoiceStream) : PctcpSchedule :=
  startIteration
    ⟨priorityChoices, switchChoices, maxSwitchPoints, scheduleLength, .empty, .empty, .empty, none,
      0, 0⟩
    scheduleLength

/-- A schedule with fresh streams. -/
def ofRng (maxSwitchPoints : Nat) (rng : Rng) : PctcpSchedule × Rng :=
  let (priorityChoices, rng) := ChoiceStream.ofRng rng
  let (switchChoices, rng) := ChoiceStream.ofRng rng
  (ofStreams maxSwitchPoints 0 priorityChoices switchChoices, rng)

/-- The schedule with other streams. -/
def withStreams (g : PctcpSchedule) (priorityChoices switchChoices : ChoiceStream) :
    PctcpSchedule :=
  ofStreams g.maxSwitchPoints g.scheduleLength priorityChoices switchChoices

/-- Takes note of the operations that are offered for the first time since their actor last ran,
and puts them into chains. -/
def discover (g : PctcpSchedule) : List Operation → PctcpSchedule × Option ChainFault
  | [] => (g, none)
  | op :: rest =>
    if g.pending.contains op.id then g.discover rest
    else
      let ((chains, fault), priorityChoices) := g.chains.offer op.id op.clock g.priorityChoices
      let pending := g.pending.insert op.id g.chains.ops.size
      match fault with
      | none => discover { g with chains, pending, priorityChoices } rest
      | some fault => ({ g with chains, pending, priorityChoices }, some fault)

/-- Whether an operation has not been run yet and can run now. -/
def isRunnable (g : PctcpSchedule) (enabled : List Operation) (op : Nat) : Bool :=
  !g.scheduled.contains op && (g.chains.ops[op]?).any fun o => enabled.any (·.id == o.id)

/-- The chain and the operation to run: the first chain whose next operation can run, or else the
first operation in any chain that can. -/
def select? (g : PctcpSchedule) (enabled : List Operation) : Option (ChainId × Nat) :=
  (g.chains.order.findSome? fun c =>
    (((g.chains.opsOf c).find? (!g.scheduled.contains ·)).filter (g.isRunnable enabled)).map
      (c, ·)) <|>
  g.chains.order.findSome? fun c => ((g.chains.opsOf c).find? (g.isRunnable enabled)).map (c, ·)

/-- Makes the change that is due at this step, if one is. Where only one operation can run, the
change waits for the next step. -/
def change (g : PctcpSchedule) (enabled : List Operation) : PctcpSchedule :=
  if g.nextChangePoint != some g.steps then g
  else if enabled.length == 1 then { g with nextChangePoint := some (g.steps + 1) }
  else
    match g.select? enabled with
    | some (chain, _) =>
      sampleChangePoint
        { g with chains := g.chains.demote chain, inversions := g.inversions + 1 }
    | none => g

/-- The operation to run: its number and the number by which its actor knows it. -/
def choose? (g : PctcpSchedule) (enabled : List Operation) : Option (Nat × OperationId) :=
  (g.select? enabled).bind fun (_, op) => (g.chains.ops[op]?).map fun o => (op, o.id)

/-- Runs the operation that its chain puts first. -/
def pick (g : PctcpSchedule) (enabled : List Operation) :
    Except StrategyError OperationId × PctcpSchedule :=
  match g.choose? enabled with
  | some (op, id) =>
    (.ok id,
      { g with
        scheduled := g.scheduled.insert op
        pending := g.pending.erase id
        steps := g.steps + 1 })
  | none => (.error (faultError "no enabled operation in any chain"), g)

/-- Picks one of the operations. -/
def next (g : PctcpSchedule) (enabled : List Operation) :
    Except StrategyError OperationId × PctcpSchedule :=
  match g.discover enabled with
  | (g, some fault) => (.error (faultError fault.message), g)
  | (g, none) => (g.change enabled).pick enabled

/-- The same kind of schedule with fresh streams. -/
def renewed (g : PctcpSchedule) (rng : Rng) : PctcpSchedule × Rng :=
  let (priorityChoices, rng) := ChoiceStream.ofRng rng
  let (switchChoices, rng) := ChoiceStream.ofRng rng
  (g.withStreams priorityChoices switchChoices, rng)

/-- The same decisions again. -/
def copied (g : PctcpSchedule) (rng : Rng) : PctcpSchedule × Rng :=
  let (priorityChoices, rng) := g.priorityChoices.copy rng
  let (switchChoices, rng) := g.switchChoices.copy rng
  (g.withStreams priorityChoices switchChoices, rng)

/-- The same decisions but for some bursts. -/
def mutated (g : PctcpSchedule) (rng : Rng) : PctcpSchedule × Rng :=
  let (priorityChoices, rng) := g.priorityChoices.mutate .schedule rng
  let (switchChoices, rng) := g.switchChoices.mutate .schedule rng
  (g.withStreams priorityChoices switchChoices, rng)

/-- The name of the schedule. -/
def description (g : PctcpSchedule) : String := s!"pctcp[{g.maxSwitchPoints} switch points]"

end PctcpSchedule

end Interleaving
