import Interleaving.Hash.Sip
import Interleaving.Session.Coverage

/-!
# Timelines

A fingerprint of what each actor took from its inbox, in its own order. An event repeated at once
counts as one, and how the actors' steps are interleaved does not matter.
-/

namespace Interleaving

/-- Events of one kind that an actor takes one right after the other. -/
structure KindRun where
  kind : String
  times : UInt32

/-- The latest events of each actor, and the fingerprints of all that they have been. -/
structure Timeline where
  /-- The latest runs of events of each actor. -/
  windows : SortedMap String (List KindRun)
  seen : SortedSet UInt64

namespace Timeline

/-- Nothing was taken. -/
def empty : Timeline := ⟨.empty, .empty⟩

/-- How many runs are remembered of each actor. -/
def windowSize : Nat := 15

/-- Counts an event of the last run of a window, after beginning a run if the last one is of another
kind, and drops the oldest runs if there are too many. -/
def extend (window : List KindRun) (kind : String) : List KindRun :=
  let window :=
    if window.getLast?.map (·.kind) == some kind then window else window ++ [⟨kind, 0⟩]
  let window := window.modify (window.length - 1) fun run =>
    { run with times := EventCoverage.countUp run.times }
  window.drop (window.length - windowSize)

/-- The fingerprint of an actor's window, in which only the kinds count. -/
def fingerprint (actor : String) (window : List KindRun) : UInt64 :=
  Sip.hash ((actor :: window.map (·.kind)).flatMap Sip.textBytes)

/-- Takes note of an event. -/
def record (t : Timeline) (actor kind : String) : Timeline :=
  let window := extend ((t.windows.get? actor).getD []) kind
  ⟨t.windows.insert actor window, t.seen.insert (fingerprint actor window)⟩

/-- The fingerprint of all fingerprints; none before the first event. -/
def hash? (t : Timeline) : Option UInt64 :=
  if t.seen.isEmpty then none
  else some (Sip.hash ((UInt64.ofNat t.seen.size :: t.seen.toList).flatMap Sip.wordBytes))

end Timeline

end Interleaving
