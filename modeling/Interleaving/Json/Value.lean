/-!
# JSON values

Values of the JSON data format. Objects keep all their members in order, so that a reader can
refuse a key given twice. Natural numbers are the only numbers told apart.
-/

namespace Interleaving

/-- A JSON value. -/
inductive Json where
  | null
  | bool (b : Bool)
  /-- A number written with digits alone. -/
  | nat (n : Nat)
  | str (s : String)
  | arr (items : List Json)
  | obj (members : List (String × Json))
  /-- Any other number, or a text that is no Unicode string because half of a surrogate pair
  stands alone, as it was written. -/
  | raw (text : String)

namespace Json

instance : Inhabited Json := ⟨null⟩

/-- The first member of an object under a key. -/
def get? (key : String) : Json → Option Json
  | obj members => (members.find? (·.1 == key)).map (·.2)
  | _ => none

/-- The text of a string. -/
def str? : Json → Option String
  | str s => some s
  | _ => none

/-- The value of a natural number. -/
def nat? : Json → Option Nat
  | nat n => some n
  | _ => none

/-- A natural number below `2 ^ 64`. -/
def uint64? : Json → Option UInt64
  | nat n => if n < UInt64.size then some (.ofNat n) else none
  | _ => none

/-- A natural number below `2 ^ 32`. -/
def uint32? : Json → Option UInt32
  | nat n => if n < UInt32.size then some (.ofNat n) else none
  | _ => none

/-- A truth value. -/
def bool? : Json → Option Bool
  | bool b => some b
  | _ => none

/-- The items of an array. -/
def arr? : Json → Option (List Json)
  | arr items => some items
  | _ => none

/-- The members of an object. -/
def obj? : Json → Option (List (String × Json))
  | obj members => some members
  | _ => none

/-- Reads a value that may be absent: `null` stands for nothing. -/
def optional? {α : Type} (read : Json → Option α) : Json → Option (Option α)
  | null => some none
  | j => (read j).map some

/-- Reads every item of an array. -/
def list? {α : Type} (read : Json → Option α) (j : Json) : Option (List α) :=
  j.arr?.bind (·.mapM read)

/-- The value of a number below `2 ^ 64`. -/
def ofUInt64 (n : UInt64) : Json := nat n.toNat

/-- The value of a number below `2 ^ 32`. -/
def ofUInt32 (n : UInt32) : Json := nat n.toNat

/-- The value of something that may be absent. -/
def ofOption {α : Type} (write : α → Json) : Option α → Json
  | none => null
  | some a => write a

/-- The array of a list. -/
def ofList {α : Type} (write : α → Json) (as : List α) : Json := arr (as.map write)

end Json

end Interleaving
