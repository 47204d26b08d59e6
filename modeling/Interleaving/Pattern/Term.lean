import Interleaving.Pattern.Event
import Interleaving.Text.Quoted

/-!
# Event terms

The letters of patterns: an event kind, or any kind, with conditions on fields.
-/

namespace Interleaving

/-- One event of a pattern: a kind and the values that some of its fields must have. -/
structure EventTerm where
  name : String
  constraints : SortedMap String String
deriving DecidableEq

namespace EventTerm

/-- The field value that stands for any value. -/
def wildcard : String := "*"

/-- The name that stands for any kind. -/
def anyName : String := "."

/-- The term of a kind without conditions. -/
def ofName (name : String) : EventTerm := ⟨name, .empty⟩

/-- The term that every event satisfies. -/
def any : EventTerm := ofName anyName

/-- Adds a condition, in place of an earlier one on the same field. -/
def constrain (t : EventTerm) (field value : String) : EventTerm :=
  { t with constraints := t.constraints.insert field value }

/-- Whether the term is open to every kind. -/
def isAny (t : EventTerm) : Bool := t.name == anyName

/-- Whether an event has the term's kind and all the field values it asks for. A field that the
event lacks fails every condition. -/
def accepts (t : EventTerm) (e : Event) : Bool :=
  (t.isAny || t.name == e.kind) && t.constraints.toList.all fun (field, value) =>
    match e.fields.get? field with
    | some actual => value == wildcard || value == actual
    | none => false

/-- Terms are ordered by name, then by their conditions entry by entry. -/
instance : Ord EventTerm :=
  ⟨compareLex (compareOn name) (compareOn fun t => t.constraints.toList.map fun (f, v) => [f, v])⟩

instance : Std.TransOrd EventTerm :=
  inferInstanceAs (Std.TransCmp (compareLex (compareOn name) (compareOn _)))

instance : Std.LawfulEqOrd EventTerm where
  eq_of_compare {s t} h := by
    have h : (compare s.name t.name).then (compare (s.constraints.toList.map fun (f, v) => [f, v])
        (t.constraints.toList.map fun (f, v) => [f, v])) = .eq := h
    obtain ⟨hname, hcs⟩ := Ordering.then_eq_eq.mp h
    obtain ⟨sname, ⟨ss, hs⟩⟩ := s
    obtain ⟨tname, ⟨ts, ht⟩⟩ := t
    cases Std.LawfulEqOrd.eq_of_compare hname
    have hcs := Std.LawfulEqOrd.eq_of_compare hcs
    have : ss = ts := List.map_inj_right (fun _ _ h => by simpa [Prod.ext_iff] using h) |>.mp hcs
    subst this
    rfl

/-- The conditions from one entry on, as they are written. -/
def conditionChars : List (String × String) → List Char
  | [] => []
  | [(f, v)] => f.toList ++ ':' :: Text.quotedChars v.toList
  | (f, v) :: rest => f.toList ++ ':' :: Text.quotedChars v.toList ++ ',' :: ' ' :: conditionChars rest

/-- The written form of a term: its name, then its conditions in braces if it has any. -/
def chars (t : EventTerm) : List Char :=
  if t.constraints.isEmpty then t.name.toList
  else t.name.toList ++ '\x7b' :: conditionChars t.constraints.toList ++ ['\x7d']

/-- The text of a term. -/
def text (t : EventTerm) : String := .ofList t.chars

end EventTerm

end Interleaving
