import Interleaving.Json.Value

/-!
# Records in JSON

A record with named fields is written as an object that holds them in a fixed order. It is read from
an object with its members in any order, or from an array that lists the first values in that order.
-/

namespace Interleaving.Json

/-- The value of a choice that is given by its name: a string, or an object whose only member has
the name as its key and holds nothing. -/
def choice? {α : Type} (ofName : String → Option α) : Json → Option α
  | str name => ofName name
  | obj [(name, null)] => ofName name
  | _ => none

/-- The fields that are given of a record with the field names `names`. Members of other names are
passed over; a field given twice and an array with too many items are refused. -/
def record? (names : List String) : Json → Option (List (String × Json))
  | obj members =>
    let known := members.filter (names.contains ·.1)
    if (known.map (·.1)).Nodup then some known else none
  | arr items => if items.length ≤ names.length then some (names.zip items) else none
  | _ => none

/-- A field that must be given. -/
def required? {α : Type} (record : List (String × Json)) (name : String)
    (read : Json → Option α) : Option α :=
  (record.lookup name).bind read

/-- A field that has the value `standard` if it is not given. -/
def field? {α : Type} (record : List (String × Json)) (name : String) (standard : α)
    (read : Json → Option α) : Option α :=
  match record.lookup name with
  | some value => read value
  | none => some standard

end Interleaving.Json
