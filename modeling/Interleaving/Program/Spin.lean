import Interleaving.Program.Action

/-!
# A program that goes on forever

Operations that can always run and do nothing. Only a bound on the number of steps ends a run.
-/

namespace Interleaving.Spin

/-- The operations, which are always the same. -/
def operations (count : Nat) : List Operation :=
  (List.range count).map fun i => .ofActor (.ofNat i) s!"spin{i}"

/-- The program with a number of operations. -/
def program (count : Nat) : Program Unit where
  name := "spin"
  initial := ()
  operations _ := operations count
  execute _ _ := .done ()

end Interleaving.Spin
