import Interleaving.Pattern.Nfa
import Interleaving.Pattern.Parse

/-!
# Matching event by event

A matcher follows an automaton along a stream of events. Events of kinds that the pattern does not
name are passed over.
-/

namespace Interleaving

/-- An automaton on its way along a stream of events. -/
structure Matcher where
  nfa : Nfa
  interesting : InterestingEvents
  /-- The states after the events seen so far. -/
  current : SortedSet Nat
  /-- All states that an event has led to. -/
  visited : SortedSet Nat
deriving DecidableEq

namespace Matcher

/-- A matcher before the first event. -/
def ofNfa (nfa : Nfa) : Matcher := ⟨nfa, nfa.interestingEvents, nfa.startStates, .empty⟩

/-- A matcher for a pattern. -/
def ofPattern (p : Pattern) : Matcher := ofNfa (.ofPattern p)

/-- A matcher for the text of a pattern. -/
def compile (source : String) : Except Pattern.ParseError Matcher :=
  (Pattern.parse source).map ofPattern

/-- Whether the events of interest seen so far form a match. -/
def isAccepting (m : Matcher) : Bool := m.current.contains m.nfa.accepting

/-- Takes one event. The answer tells whether the event is of interest and completes a match. -/
def matchOne (m : Matcher) (e : Event) : Bool × Matcher :=
  if m.interesting.contains e.kind then
    let current := m.nfa.step m.current e
    let m := { m with current, visited := m.visited.union current }
    (m.isAccepting, m)
  else (false, m)

/-- Back to the start of the stream. -/
def reset (m : Matcher) : Matcher :=
  { m with current := m.nfa.startStates, visited := .empty }

/-- Whether no state is left, so that nothing can match any more. -/
def isDead (m : Matcher) : Bool := m.current.isEmpty

end Matcher

end Interleaving
