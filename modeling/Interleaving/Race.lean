import Interleaving.Operation

/-!
# Races between sends

Two sends race if they go to the same receiver, come from different senders, and neither clock is
ordered before the other. A monitor compares the sends of one run and keeps the races of all runs. A
race is noted at both of its sites.
-/

namespace Interleaving

/-- Two sites whose sends race. -/
structure RacingPair where
  first : SendSite
  second : SendSite
deriving DecidableEq

/-- What has been seen of sends and races. -/
structure RaceMonitor where
  /-- The sends of the present run to each receiver, with their clocks, in order. -/
  history : SortedMap String (List (SendSite × VectorClock))
  /-- The sites with which each site races, in this run or an earlier one. -/
  conflicts : SortedMap SendSite (SortedSet SendSite)

namespace RaceMonitor

/-- The monitor that has seen nothing. -/
def empty : RaceMonitor := ⟨.empty, .empty⟩

instance : Inhabited RaceMonitor := ⟨empty⟩

/-- The sites with which a site races. -/
def conflictsOf (m : RaceMonitor) (a : SendSite) : SortedSet SendSite :=
  (m.conflicts.get? a).getD .empty

/-- Whether sends from two sites have raced. -/
def sitesRace (m : RaceMonitor) (a b : SendSite) : Bool := (m.conflictsOf a).contains b

/-- Notes at `a` that it races with `b`. -/
def noteAt (m : RaceMonitor) (a b : SendSite) : RaceMonitor :=
  { m with conflicts := m.conflicts.alter a fun present => (present.getD .empty).insert b }

/-- Notes at both sites that they race. -/
def note (m : RaceMonitor) (a b : SendSite) : RaceMonitor := (m.noteAt a b).noteAt b a

/-- Compares a send with an earlier one to the same receiver. The number of pairs found so far goes
up if the two race and have not raced before. -/
def compareWith (site : SendSite) (clock : VectorClock) (found : Nat × RaceMonitor)
    (prior : SendSite × VectorClock) : Nat × RaceMonitor :=
  if prior.1.sender == site.sender || !clock.concurrent prior.2 then found
  else
    (if found.2.sitesRace site prior.1 then found.1 else found.1 + 1, found.2.note site prior.1)

/-- Takes note of a send. The answer is the number of pairs that have not raced before. -/
def onSend (m : RaceMonitor) (sender : String) (location : UInt32) (receiver : String)
    (clock : VectorClock) : Nat × RaceMonitor :=
  let site : SendSite := ⟨sender, receiver, location⟩
  let earlier := (m.history.get? receiver).getD []
  let (found, m) := earlier.foldl (compareWith site clock) (0, m)
  (found,
    { m with
      history := m.history.alter receiver fun present => present.getD [] ++ [(site, clock)] })

/-- Whether two operations are sends from sites that have raced. -/
def isRacing (m : RaceMonitor) (a b : Operation) : Bool :=
  match a.sendSite?, b.sendSite? with
  | some a, some b => m.sitesRace a b
  | _, _ => false

/-- Forgets the sends of the run and keeps the races. -/
def reset (m : RaceMonitor) : RaceMonitor := { m with history := .empty }

/-- The number of pairs that race. Each is noted at both of its sites. -/
def count (m : RaceMonitor) : Nat :=
  m.conflicts.values.foldr (fun others n => others.size + n) 0 / 2

/-- The pairs that race, the smaller site of each first. -/
def pairs (m : RaceMonitor) : Array RacingPair :=
  (m.conflicts.toList.flatMap fun (a, others) =>
    (others.toList.filter (compare a · == .lt)).map (⟨a, ·⟩)).toArray

end RaceMonitor

end Interleaving
