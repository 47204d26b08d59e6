import Interleaving.Json.Value

/-!
# Reading JSON text

The grammar of JSON as a recursive descent over characters. `Json.parse?` accepts exactly one
value with blanks around it. Each nested reader takes a bound on its depth that the length of the
text always covers.
-/

namespace Interleaving.Json

/-- The blanks of JSON text. -/
def isBlank (c : Char) : Bool := c == ' ' || c == '\n' || c == '\t' || c == '\r'

/-- The text from its first character that is no blank. -/
def skipBlanks (cs : List Char) : List Char := cs.dropWhile isBlank

/-- The value of a hexadecimal digit. -/
def hexDigit? (c : Char) : Option Nat :=
  if c.isDigit then some (c.toNat - '0'.toNat)
  else if 'a' ≤ c && c ≤ 'f' then some (c.toNat - 'a'.toNat + 10)
  else if 'A' ≤ c && c ≤ 'F' then some (c.toNat - 'A'.toNat + 10)
  else none

/-- The value of four hexadecimal digits. -/
def hexUnit? (a b c d : Char) : Option Nat := do
  let a ← hexDigit? a
  let b ← hexDigit? b
  let c ← hexDigit? c
  let d ← hexDigit? d
  return ((a * 16 + b) * 16 + c) * 16 + d

/-- The character that a backslash and one more character stand for. -/
def shortEscape? : Char → Option Char
  | '"' => some '"'
  | '\\' => some '\\'
  | '/' => some '/'
  | 'b' => some '\x08'
  | 'f' => some '\x0c'
  | 'n' => some '\n'
  | 'r' => some '\r'
  | 't' => some '\t'
  | _ => none

/-- The code units of a string up to its closing quote, and the text after it. A character that
stands for itself is one unit, whatever its size; an escape gives one of sixteen bits. -/
def stringUnits : List Char → Option (List Nat × List Char)
  | [] => none
  | '"' :: rest => some ([], rest)
  | '\\' :: 'u' :: a :: b :: c :: d :: rest => do
    let u ← hexUnit? a b c d
    let (us, rest) ← stringUnits rest
    return (u :: us, rest)
  | '\\' :: e :: rest => do
    let c ← shortEscape? e
    let (us, rest) ← stringUnits rest
    return (c.toNat :: us, rest)
  | c :: rest => do
    guard (0x20 ≤ c.toNat)
    let (us, rest) ← stringUnits rest
    return (c.toNat :: us, rest)

/-- Whether a unit is the first half of a surrogate pair. -/
def isHighHalf (u : Nat) : Bool := 0xd800 ≤ u && u < 0xdc00

/-- Whether a unit is the second half of a surrogate pair. -/
def isLowHalf (u : Nat) : Bool := 0xdc00 ≤ u && u < 0xe000

/-- The characters of a row of units; none if half of a pair stands alone. -/
def ofUnits? : List Nat → Option (List Char)
  | [] => some []
  | [u] => if isHighHalf u || isLowHalf u then none else some [.ofNat u]
  | u :: v :: rest =>
    if isHighHalf u && isLowHalf v then
      (ofUnits? rest).map (.ofNat (0x10000 + (u - 0xd800) * 0x400 + (v - 0xdc00)) :: ·)
    else if isHighHalf u || isLowHalf u then none
    else (ofUnits? (v :: rest)).map (.ofNat u :: ·)

/-- The text between a string's quotes, unless half of a pair stands alone in it, and what follows
the string. -/
def string (cs : List Char) : Option (Option String × List Char) :=
  (stringUnits cs).map fun (us, rest) => ((ofUnits? us).map .ofList, rest)

/-- The part of `cs` before its tail `rest`. -/
def written (cs rest : List Char) : String := .ofList (cs.take (cs.length - rest.length))

/-- Splits off a row of digits that is not empty. -/
def digits (cs : List Char) : Option (List Char × List Char) :=
  match cs.takeWhile Char.isDigit with
  | [] => none
  | ds => some (ds, cs.dropWhile Char.isDigit)

/-- Splits off the digits before a number's point: no zero stands before another digit. -/
def wholePart (cs : List Char) : Option (List Char × List Char) :=
  match digits cs with
  | some ('0' :: _ :: _, _) => none
  | r => r

/-- What follows a number's fraction, if it has one, and whether it has. -/
def afterFraction : List Char → Option (Bool × List Char)
  | '.' :: rest => (digits rest).map (true, ·.2)
  | cs => some (false, cs)

/-- What follows a number's exponent, if it has one, and whether it has. -/
def afterExponent : List Char → Option (Bool × List Char)
  | 'e' :: '+' :: rest | 'e' :: '-' :: rest | 'E' :: '+' :: rest | 'E' :: '-' :: rest
  | 'e' :: rest | 'E' :: rest => (digits rest).map (true, ·.2)
  | cs => some (false, cs)

/-- The value of a row of decimal digits. -/
def digitsValue (ds : List Char) : Nat :=
  ds.foldl (fun n d => 10 * n + (d.toNat - '0'.toNat)) 0

/-- A number and what follows it. -/
def number (cs : List Char) : Option (Json × List Char) := do
  let (negative, unsigned) := match cs with
    | '-' :: rest => (true, rest)
    | _ => (false, cs)
  let (ds, rest) ← wholePart unsigned
  let (hasFraction, rest) ← afterFraction rest
  let (hasExponent, rest) ← afterExponent rest
  if negative || hasFraction || hasExponent then return (raw (written cs rest), rest)
  else return (nat (digitsValue ds), rest)

mutual

/-- One value, after blanks, and what follows it. -/
def value : Nat → List Char → Option (Json × List Char)
  | 0, _ => none
  | depth + 1, text =>
    match skipBlanks text with
    | 'n' :: 'u' :: 'l' :: 'l' :: rest => some (null, rest)
    | 't' :: 'r' :: 'u' :: 'e' :: rest => some (bool true, rest)
    | 'f' :: 'a' :: 'l' :: 's' :: 'e' :: rest => some (bool false, rest)
    | '"' :: cs => do
      let (s, rest) ← string cs
      return (match s with
        | some s => str s
        | none => raw (written ('"' :: cs) rest), rest)
    | '[' :: cs =>
      match skipBlanks cs with
      | ']' :: rest => some (arr [], rest)
      | _ => do
        let (items, rest) ← items depth cs
        return (arr items, rest)
    | '{' :: cs =>
      match skipBlanks cs with
      | '}' :: rest => some (obj [], rest)
      | _ => do
        let (members, rest) ← members depth cs
        return (match members.mapM fun (k, v) => k.map (·, v) with
          | some members => obj members
          | none => raw (written ('{' :: cs) rest), rest)
    | cs => number cs

/-- The items of an array up to its closing bracket, at least one. -/
def items : Nat → List Char → Option (List Json × List Char)
  | 0, _ => none
  | depth + 1, cs => do
    let (v, rest) ← value depth cs
    match skipBlanks rest with
    | ',' :: rest =>
      let (vs, rest) ← items depth rest
      return (v :: vs, rest)
    | ']' :: rest => return ([v], rest)
    | _ => none

/-- The members of an object up to its closing brace, at least one. -/
def members : Nat → List Char → Option (List (Option String × Json) × List Char)
  | 0, _ => none
  | depth + 1, cs => do
    let '"' :: cs := skipBlanks cs | none
    let (key, rest) ← string cs
    let ':' :: rest := skipBlanks rest | none
    let (v, rest) ← value depth rest
    match skipBlanks rest with
    | ',' :: rest =>
      let (vs, rest) ← members depth rest
      return ((key, v) :: vs, rest)
    | '}' :: rest => return ([(key, v)], rest)
    | _ => none

end

/-- Reads a text that holds one value. -/
def parse? (s : String) : Option Json := do
  let cs := s.toList
  let (v, rest) ← value (2 * cs.length + 2) cs
  guard (skipBlanks rest).isEmpty
  return v

end Interleaving.Json
