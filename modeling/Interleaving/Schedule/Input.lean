import Interleaving.Choice.Stream

/-!
# Inputs

The values that a program under test asks for: numbers from one stream, fractions from another.
-/

namespace Interleaving

/-- A source of the values handed to a program. -/
structure InputGenerator where
  ints : ChoiceStream
  doubles : ChoiceStream

namespace InputGenerator

/-- Inputs with fresh streams. -/
def ofRng (rng : Rng) : InputGenerator × Rng :=
  let (ints, rng) := ChoiceStream.ofRng rng
  let (doubles, rng) := ChoiceStream.ofRng rng
  (⟨ints, doubles⟩, rng)

/-- A number below `bound`, or `0` if there is none. -/
def nextInt (bound : UInt64) (g : InputGenerator) : UInt64 × InputGenerator :=
  let (n, ints) := g.ints.nextInt bound
  (n, { g with ints })

/-- A truth value that is true once in `maxValue` times. -/
def nextBool (maxValue : UInt64) (g : InputGenerator) : Bool × InputGenerator :=
  let (n, g) := g.nextInt (max maxValue 1)
  (n == 0, g)

/-- A fraction from `0` up to but not including `1`. -/
def nextDouble (g : InputGenerator) : Float × InputGenerator :=
  let (x, doubles) := g.doubles.nextDouble
  (x, { g with doubles })

/-- Back to the first value. -/
def rewind (g : InputGenerator) : InputGenerator := ⟨g.ints.rewind, g.doubles.rewind⟩

/-- The number of values handed out. -/
def size (g : InputGenerator) : Nat := g.ints.values.size + g.doubles.values.size

/-- The same values again. -/
def copied (g : InputGenerator) (rng : Rng) : InputGenerator × Rng :=
  let (ints, rng) := g.ints.copy rng
  let (doubles, rng) := g.doubles.copy rng
  (⟨ints, doubles⟩, rng)

/-- The same values but for some bursts. -/
def mutated (g : InputGenerator) (rng : Rng) : InputGenerator × Rng :=
  let (ints, rng) := g.ints.mutate .input rng
  let (doubles, rng) := g.doubles.mutate .input rng
  (⟨ints, doubles⟩, rng)

end InputGenerator

end Interleaving
