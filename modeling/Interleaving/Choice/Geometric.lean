/-!
# Geometric samples

How many independent trials it takes to succeed once, computed from one uniform fraction.
-/

namespace Interleaving.Geometric

/-- The number of trials until the first success of probability `p`, at least one, for a fraction
`u` of the unit interval. Where success is impossible the number is the largest word. -/
def sample (p u : Float) : Nat :=
  if p ≥ 1.0 then 1
  else if p ≤ 0.0 then UInt64.size - 1
  else
    let trials := (Float.log (1.0 - u) / Float.log (1.0 - p)).ceil
    if trials.isFinite && trials ≥ 1.0 then trials.toUInt64.toNat else 1

/-- A number of trials with the given mean. -/
def sampleMean (mean u : Float) : Nat := if mean ≤ 1.0 then 1 else sample (1.0 / mean) u

end Interleaving.Geometric
