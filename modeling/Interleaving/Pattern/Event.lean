import Interleaving.Data.SortedMap

/-!
# Events

What an actor takes from its inbox: a kind and fields with text values.
-/

namespace Interleaving

/-- An event: its kind and the values of its fields. -/
structure Event where
  kind : String
  fields : SortedMap String String
deriving DecidableEq

/-- An event without fields. -/
def Event.ofKind (kind : String) : Event := ⟨kind, .empty⟩

end Interleaving
