import Interleaving.Data.SortedMap

/-!
# Event coverage

Which events were taken by which receivers, and how often, in one run and over all runs.
-/

namespace Interleaving

/-- For each pair of receiver and event, how often the event was taken. -/
structure EventCoverage where
  hits : SortedMap String UInt32
deriving DecidableEq

namespace EventCoverage

/-- Nothing was taken. -/
def empty : EventCoverage := ⟨.empty⟩

instance : Inhabited EventCoverage := ⟨empty⟩

/-- The name of a pair. -/
def key (receiver event : String) : String := s!"{receiver}:{event}"

/-- A count raised by one, up to the largest count there is. -/
def countUp (n : UInt32) : UInt32 := if n = 4294967295 then n else n + 1

/-- Counts one event. -/
def record (c : EventCoverage) (receiver event : String) : EventCoverage :=
  ⟨c.hits.alter (key receiver event) fun present => countUp (present.getD 0)⟩

/-- The larger count for each pair. -/
def merge (c d : EventCoverage) : EventCoverage :=
  ⟨d.hits.toList.foldl
    (fun m (k, n) => m.alter k fun present => max (present.getD 0) n) c.hits⟩

/-- The number of pairs. -/
def count (c : EventCoverage) : Nat := c.hits.size

/-- How often an event was taken by a receiver. -/
def hitsOf (c : EventCoverage) (receiver event : String) : UInt32 :=
  (c.hits.get? (key receiver event)).getD 0

/-- The number of pairs that another coverage lacks. -/
def newPairs (c known : EventCoverage) : Nat := c.hits.keys.countP (!known.hits.contains ·)

/-- The pairs. -/
def keys (c : EventCoverage) : SortedSet String := .ofList c.hits.keys

end EventCoverage

/-- The coverage of all runs of a session. -/
structure CoverageCollector where
  total : EventCoverage
  runs : UInt64

namespace CoverageCollector

/-- No run yet. -/
def empty : CoverageCollector := ⟨.empty, 0⟩

/-- Whether a run takes an event that no run before it has taken. -/
def isInteresting (c : CoverageCollector) (run : EventCoverage) : Bool := 0 < run.newPairs c.total

/-- Adds a run. The answer is the number of new pairs. -/
def update (c : CoverageCollector) (run : EventCoverage) : Nat × CoverageCollector :=
  let total := c.total.merge run
  (total.count - c.total.count, ⟨total, c.runs + 1⟩)

end CoverageCollector

end Interleaving
