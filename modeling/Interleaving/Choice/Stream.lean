import Interleaving.Choice.Geometric
import Interleaving.Random.ChaCha

/-!
# Choice streams

Streams of random words that remember what they hand out. Run again from its start, a stream makes
the same choices; a copy makes them too, and a mutated copy makes all but a few of them.
-/

namespace Interleaving

/-- How many bursts a mutation overwrites, and how long they are, on average. -/
structure MutationMeans where
  count : Float
  size : Float

/-- The bursts by which schedules are mutated. -/
def MutationMeans.schedule : MutationMeans := ⟨5.0, 5.0⟩

/-- The bursts by which inputs are mutated. -/
def MutationMeans.input : MutationMeans := ⟨32.0, 128.0⟩

/-- Recorded choices, the place of the next one, and a source for when they run out. -/
structure ChoiceStream where
  values : Array UInt64
  cursor : Nat
  rng : Rng

namespace ChoiceStream

/-- A stream that begins with given choices. -/
def ofValues (values : Array UInt64) (seed : UInt64) : ChoiceStream := ⟨values, 0, .ofSeed seed⟩

/-- A stream without choices. -/
def ofSeed (seed : UInt64) : ChoiceStream := ofValues #[] seed

/-- A stream without choices whose seed is drawn from a source. -/
def ofRng (rng : Rng) : ChoiceStream × Rng :=
  let (seed, rng) := rng.nextUInt64
  (ofSeed seed, rng)

/-- The next word: a recorded one, or a fresh one that is recorded. -/
def nextUInt64 (s : ChoiceStream) : UInt64 × ChoiceStream :=
  match s.values[s.cursor]? with
  | some recorded => (recorded, { s with cursor := s.cursor + 1 })
  | none =>
    let (fresh, rng) := s.rng.nextUInt64
    (fresh, ⟨s.values.push fresh, s.cursor + 1, rng⟩)

/-- A number below `bound`, or `0` if there is none. -/
def nextInt (bound : UInt64) (s : ChoiceStream) : UInt64 × ChoiceStream :=
  let (w, s) := s.nextUInt64
  (if bound = 0 then 0 else w % bound, s)

/-- A position in a list of the given length, or `0` if it is empty. -/
def nextIndex (length : Nat) (s : ChoiceStream) : Nat × ChoiceStream :=
  let (w, s) := s.nextUInt64
  (if length = 0 then 0 else w.toNat % length, s)

/-- A fraction from `0` up to but not including `1`. -/
def nextDouble (s : ChoiceStream) : Float × ChoiceStream :=
  let (w, s) := s.nextUInt64
  (Rng.unitInterval w, s)

/-- The eight bytes of a word, the lowest first. -/
def wordBytes (w : UInt64) : List UInt8 :=
  (List.range 8).map fun i => (w >>> (.ofNat (8 * i))).toUInt8

/-- The bytes of as many words as are asked for. -/
def nextWords : Nat → ChoiceStream → List UInt8 × ChoiceStream
  | 0, s => ([], s)
  | n + 1, s =>
    let (w, s) := s.nextUInt64
    let (bytes, s) := nextWords n s
    (wordBytes w ++ bytes, s)

/-- As many bytes as asked for, eight from each word but the last. -/
def nextBytes (n : Nat) (s : ChoiceStream) : List UInt8 × ChoiceStream :=
  let (bytes, s) := nextWords ((n + 7) / 8) s
  (bytes.take n, s)

/-- Back to the first recorded choice. -/
def rewind (s : ChoiceStream) : ChoiceStream := { s with cursor := 0 }

/-- The same choices from the start, with a source of its own. -/
def copy (s : ChoiceStream) (rng : Rng) : ChoiceStream × Rng :=
  let (seed, rng) := rng.nextUInt64
  (ofValues s.values seed, rng)

/-- Puts fresh words in the place of `n` choices, beginning with the one at `i`. -/
def overwrite (values : Array UInt64) (rng : Rng) (i : Nat) : Nat → Array UInt64 × Rng
  | 0 => (values, rng)
  | n + 1 =>
    let (w, rng) := rng.nextUInt64
    overwrite (values.setIfInBounds i w) rng (i + 1) n

/-- Overwrites one burst, cut off at the end of the choices. -/
def overwriteBurst (meanSize : Float) (values : Array UInt64) (rng : Rng) : Array UInt64 × Rng :=
  let (u, rng) := rng.nextDouble
  let size := Geometric.sampleMean meanSize u
  let (offset, rng) := rng.nextBelow values.size
  overwrite values rng offset (min (offset + size) values.size - offset)

/-- Overwrites a number of bursts one after the other. -/
def overwriteBursts (meanSize : Float) : Nat → Array UInt64 → Rng → Array UInt64 × Rng
  | 0, values, rng => (values, rng)
  | n + 1, values, rng =>
    let (values, rng) := overwriteBurst meanSize values rng
    overwriteBursts meanSize n values rng

/-- A copy in which bursts of choices are overwritten. How many, how long and where is drawn from
the source, and so are the new choices; there are as many choices as before. -/
def mutate (s : ChoiceStream) (means : MutationMeans) (rng : Rng) : ChoiceStream × Rng :=
  let (copied, rng) := s.copy rng
  if copied.values.isEmpty then (copied, rng)
  else
    let (u, rng) := rng.nextDouble
    let bursts := Geometric.sampleMean means.count u
    let (values, rng) := overwriteBursts means.size bursts copied.values rng
    ({ copied with values }, rng)

end ChoiceStream

end Interleaving
