import Interleaving.Pattern.Matcher
import Interleaving.Session.Coverage
import Interleaving.Session.Timeline
import Interleaving.Strategy.Scheduler

/-!
# Observing a run

What is noted of each event that an actor takes from its inbox: coverage, timeline, and the progress
of the pattern if there is one.
-/

namespace Interleaving

/-- The progress of a pattern in a run. -/
structure PatternObserver where
  matcher : Matcher
  /-- Whether the pattern was matched at some point. -/
  matched : Bool
  /-- The kinds of the interesting events. -/
  matchedEvents : Array String

namespace PatternObserver

/-- An observer before the first event. -/
def ofMatcher (matcher : Matcher) : PatternObserver := ⟨matcher, false, #[]⟩

/-- Takes note of an event. -/
def onDequeue (o : PatternObserver) (e : Event) : PatternObserver :=
  if o.matcher.interesting.contains e.kind then
    let (accepted, matcher) := o.matcher.matchOne e
    ⟨matcher, o.matched || accepted, o.matchedEvents.push e.kind⟩
  else o

/-- Back to before the first event. -/
def reset (o : PatternObserver) : PatternObserver := ofMatcher o.matcher.reset

end PatternObserver

/-- All that is noted of a run. -/
structure RunObserver where
  pattern : Option PatternObserver
  coverage : EventCoverage
  timeline : Timeline

namespace RunObserver

/-- An observer before the first event. -/
def ofMatcher (matcher : Option Matcher) : RunObserver :=
  ⟨matcher.map .ofMatcher, .empty, .empty⟩

/-- Takes note of an event that a receiver takes. -/
def onDequeue (o : RunObserver) (receiver : String) (e : Event) : RunObserver where
  pattern := o.pattern.map (·.onDequeue e)
  coverage := o.coverage.record receiver e.kind
  timeline := o.timeline.record receiver e.kind

/-- What is known of the run. -/
def summary (o : RunObserver) (steps : Nat) (bugFound : Bool) : RunSummary where
  steps := steps
  eventCoverage := o.coverage.keys
  visitedStates := o.pattern.elim .empty (·.matcher.visited)
  patternMatched := o.pattern.any (·.matched)
  timelineHash := o.timeline.hash?
  matchedEvents := o.pattern.elim [] (·.matchedEvents.toList)
  bugFound := bugFound

/-- Back to before the first event. -/
def reset (o : RunObserver) : RunObserver := ⟨o.pattern.map (·.reset), .empty, .empty⟩

end RunObserver

end Interleaving
