/-!
# Bugs

The bugs of a session, in the order in which they were found, each with the trace that shows it.
-/

namespace Interleaving

/-- A bug of the program under test. -/
structure BugReport where
  /-- The number under which the bug is kept. -/
  bugId : UInt64
  /-- The run that showed it. -/
  iteration : UInt64
  message : String
  /-- The number of decisions in that run. -/
  steps : UInt64
  /-- The strategy of that run. -/
  strategy : String
  /-- The text of the run's trace. -/
  trace : String
deriving DecidableEq

/-- The bugs found so far and the number of the next one. -/
structure BugLog where
  bugs : Array BugReport
  nextId : UInt64

namespace BugLog

/-- No bugs. -/
def empty : BugLog := ⟨#[], 0⟩

/-- The bugs of an earlier session; numbers go on after the largest of theirs. -/
def ofReports (bugs : List BugReport) : BugLog :=
  ⟨bugs.toArray, bugs.foldl (fun next b => max next (b.bugId + 1)) 0⟩

/-- Adds a bug under the next number, which is the answer. -/
def add (l : BugLog) (bug : BugReport) : UInt64 × BugLog :=
  (l.nextId, ⟨l.bugs.push { bug with bugId := l.nextId }, l.nextId + 1⟩)

/-- The number of different messages. -/
def distinctMessages (l : BugLog) : Nat := (l.bugs.toList.map (·.message)).eraseDups.length

end BugLog

end Interleaving
