import Interleaving.Pattern.Nfa
import Interleaving.Strategy.Scheduler

/-!
# Guidance by a pattern

Sends of events that a pattern names are held back as long as anything else can run.
-/

namespace Interleaving

/-- What guidance by a pattern adds to a strategy. -/
structure Guidance where
  interesting : InterestingEvents
  /-- The interesting events of the last run. -/
  lastScheduling : List String

namespace Guidance

/-- Guidance before the first run. -/
def ofEvents (interesting : InterestingEvents) : Guidance := ⟨interesting, []⟩

/-- Whether an operation sends an interesting event. -/
def holdsBack (g : Guidance) (op : Operation) : Bool :=
  op.sentEvent?.any g.interesting.contains

/-- The operations to choose from: those that can run and are not held back, if something is held
back and something else can run; otherwise all. -/
def shown (g : Guidance) (ops : List Operation) : List Operation :=
  let enabled := Operation.enabledAmong ops
  let preferred := enabled.filter (!g.holdsBack ·)
  if enabled.any g.holdsBack && !preferred.isEmpty then preferred else ops

/-- Remembers the interesting events of a run. -/
def observe (g : Guidance) (summary : RunSummary) : Guidance :=
  { g with lastScheduling := summary.matchedEvents }

/-- The statistics of the guided strategy. Where it has saved no events, those of the last run
stand in. -/
def stats (g : Guidance) (inner : Option FeedbackStats) : FeedbackStats :=
  let stats := inner.getD .empty
  if stats.lastSavedScheduling.isEmpty then { stats with lastSavedScheduling := g.lastScheduling }
  else stats

/-- The name of a guided strategy. -/
def description (inner : String) : String := s!"pattern[{inner}]"

end Guidance

/-- A strategy guided by a pattern. -/
structure GuidedStrategy (S : Type) where
  inner : S
  guidance : Guidance

namespace GuidedStrategy

/-- Changes the inner strategy and keeps its answer. -/
def lift {S α : Type} (s : GuidedStrategy S) (r : α × S) : α × GuidedStrategy S :=
  (r.1, { s with inner := r.2 })

instance {S : Type} [Scheduler S] : Scheduler (GuidedStrategy S) where
  nextOperation s ops := s.lift (Scheduler.nextOperation s.inner (s.guidance.shown ops))
  nextBool s maxValue := s.lift (Scheduler.nextBool s.inner maxValue)
  nextInt s maxValue := s.lift (Scheduler.nextInt s.inner maxValue)
  prepare s := s.lift (Scheduler.prepare s.inner)
  scheduledSteps s := Scheduler.scheduledSteps s.inner
  reachedMaxSteps s := Scheduler.reachedMaxSteps s.inner
  isFair s := Scheduler.isFair s.inner
  description s := Guidance.description (Scheduler.description s.inner)
  observe s summary := ⟨Scheduler.observe s.inner summary, s.guidance.observe summary⟩
  stats s := some (s.guidance.stats (Scheduler.stats s.inner))

end GuidedStrategy

end Interleaving
