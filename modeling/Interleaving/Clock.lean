import Interleaving.Data.SortedMap

/-!
# Vector clocks

A counter for each actor. Comparing clocks tells which of two steps can have influenced the other.
An actor without a counter counts as being at `0`.
-/

namespace Interleaving

/-- The counters of the actors that have one. -/
structure VectorClock where
  counters : SortedMap String UInt64
deriving DecidableEq

namespace VectorClock

/-- The clock without counters. -/
def empty : VectorClock := ⟨.empty⟩

instance : Inhabited VectorClock := ⟨empty⟩

/-- The clock with the counters of a list. -/
def ofList (counters : List (String × UInt64)) : VectorClock := ⟨.ofList counters⟩

/-- An actor's counter. -/
def get (c : VectorClock) (actor : String) : UInt64 := (c.counters.get? actor).getD 0

/-- Sets an actor's counter. -/
def set (c : VectorClock) (actor : String) (value : UInt64) : VectorClock :=
  ⟨c.counters.insert actor value⟩

/-- Counts one more step of an actor. -/
def increment (c : VectorClock) (actor : String) : VectorClock :=
  ⟨c.counters.alter actor fun present => present.getD 0 + 1⟩

/-- The larger of two counters for each actor. -/
def merge (c d : VectorClock) : VectorClock :=
  ⟨d.counters.toList.foldl
    (fun m (actor, value) => m.alter actor fun present => max (present.getD 0) value) c.counters⟩

/-- Whether no counter of the first clock is above the one of the second. -/
def le (c d : VectorClock) : Bool :=
  c.counters.relates (fun v w => v.getD 0 ≤ w.getD 0) d.counters

/-- Whether some counters are not the same. -/
def differs (c d : VectorClock) : Bool :=
  !c.counters.relates (fun v w => v.getD 0 == w.getD 0) d.counters

/-- Whether the first clock is below the second: nowhere above it, and not the same. -/
def lt (c d : VectorClock) : Bool := c.le d && c.differs d

/-- Whether neither clock is at or below the other. -/
def concurrent (c d : VectorClock) : Bool := !c.le d && !d.le c

theorem le_iff {c d : VectorClock} : c.le d = true ↔ ∀ actor, c.get actor ≤ d.get actor := by
  simp [le, get, SortedMap.relates_iff]

theorem differs_eq_false_iff {c d : VectorClock} :
    c.differs d = false ↔ ∀ actor, c.get actor = d.get actor := by
  simp [differs, get, SortedMap.relates_iff]

/-- The text of a clock. -/
def text (c : VectorClock) : String :=
  "[" ++ ", ".intercalate (c.counters.toList.map fun (actor, v) => s!"{actor}:{v}") ++ "]"

end VectorClock

end Interleaving
