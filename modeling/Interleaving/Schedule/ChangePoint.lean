import Interleaving.Choice.Stream
import Interleaving.Data.SortedSet

/-!
# Change points

The steps at which a priority schedule demotes what would run next. They are either drawn at once,
as the first entries of a shuffled list of all steps, or one at a time, each at a geometric distance
from the one before.
-/

namespace Interleaving.ChangePoint

/-- How likely a change is at each step as long as the length of a run is unknown. -/
def unknownLengthProbability : Float := 0.1

/-- How likely a change is at each step if `left` changes are to fall in what remains of a run of
`length` steps. The steps that remain are counted in a word. -/
def probability (left length steps : Nat) : Float :=
  if length = 0 then unknownLengthProbability
  else (UInt64.ofNat left).toFloat / (UInt64.ofNat (length - steps) + 1).toFloat

/-- Draws the step of the next change; there is none when no change is left. -/
def sampleNext (left length steps : Nat) (choices : ChoiceStream) : Option Nat × ChoiceStream :=
  if left = 0 then (none, choices)
  else
    let (u, choices) := choices.nextDouble
    (some (steps + Geometric.sample (probability left length steps) u), choices)

/-- Exchanges the entries at `i`, `i - 1`, …, `1` with entries at or before them, which are drawn
from the stream. -/
def shuffleDown : Nat → Array Nat → ChoiceStream → Array Nat × ChoiceStream
  | 0, steps, choices => (steps, choices)
  | i + 1, steps, choices =>
    let (j, choices) := choices.nextIndex (i + 2)
    shuffleDown i (steps.swapIfInBounds (i + 1) j) choices

/-- Draws the steps of at most `count` changes in a run of the given length. -/
def sampleAll (count length : Nat) (choices : ChoiceStream) : SortedSet Nat × ChoiceStream :=
  let (steps, choices) := shuffleDown (length - 1) (Array.range length) choices
  (.ofList (steps.toList.take count), choices)

/-- The first number from `n` on that is not in an increasing list. -/
def firstFree (n : Nat) : List Nat → Nat
  | [] => n
  | p :: ps => if p < n then firstFree n ps else if p = n then firstFree (n + 1) ps else n

/-- Moves the change at a step to the next step without one. -/
def postpone (points : SortedSet Nat) (step : Nat) : SortedSet Nat :=
  let rest := points.erase step
  rest.insert (firstFree (step + 1) rest.toList)

end Interleaving.ChangePoint
