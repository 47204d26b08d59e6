import Interleaving.Json.Value

/-!
# Writing JSON text

Two forms: one line without blanks, and one item a line with two blanks for each level. In both a
writer puts its text in front of a given rest, so that nothing is copied twice.
-/

namespace Interleaving.Json

/-- The written form of one character of a string. Only quotes, backslashes and controls are
escaped. -/
def escaped (c : Char) : List Char :=
  match c with
  | '"' => ['\\', '"']
  | '\\' => ['\\', '\\']
  | '\x08' => ['\\', 'b']
  | '\x0c' => ['\\', 'f']
  | '\n' => ['\\', 'n']
  | '\r' => ['\\', 'r']
  | '\t' => ['\\', 't']
  | c =>
    if c.toNat < 0x20 then
      ['\\', 'u', '0', '0', Nat.digitChar (c.toNat / 16), Nat.digitChar (c.toNat % 16)]
    else [c]

/-- A string between its quotes. -/
def writeString (s : String) (rest : List Char) : List Char :=
  '"' :: s.toList.foldr (fun c rest => escaped c ++ rest) ('"' :: rest)

mutual

/-- A value on one line. -/
def compactTo : Json → List Char → List Char
  | null, rest => "null".toList ++ rest
  | bool true, rest => "true".toList ++ rest
  | bool false, rest => "false".toList ++ rest
  | nat n, rest => Nat.toDigits 10 n ++ rest
  | str s, rest => writeString s rest
  | raw text, rest => text.toList ++ rest
  | arr [], rest => '[' :: ']' :: rest
  | arr (v :: vs), rest => '[' :: compactTo v (compactItems vs (']' :: rest))
  | obj [], rest => '\x7b' :: '\x7d' :: rest
  | obj ((k, v) :: vs), rest =>
    '\x7b' :: writeString k (':' :: compactTo v (compactMembers vs ('\x7d' :: rest)))

/-- The items of an array after its first. -/
def compactItems : List Json → List Char → List Char
  | [], rest => rest
  | v :: vs, rest => ',' :: compactTo v (compactItems vs rest)

/-- The members of an object after its first. -/
def compactMembers : List (String × Json) → List Char → List Char
  | [], rest => rest
  | (k, v) :: vs, rest => ',' :: writeString k (':' :: compactTo v (compactMembers vs rest))

end

/-- The text of a value on one line. -/
def compact (j : Json) : String := .ofList (j.compactTo [])

/-- A line end and the blanks of a level. -/
def newLine (level : Nat) (rest : List Char) : List Char :=
  '\n' :: (List.replicate (2 * level) ' ' ++ rest)

mutual

/-- A value with an item a line, at a level of indentation. -/
def prettyTo (level : Nat) : Json → List Char → List Char
  | null, rest => "null".toList ++ rest
  | bool true, rest => "true".toList ++ rest
  | bool false, rest => "false".toList ++ rest
  | nat n, rest => Nat.toDigits 10 n ++ rest
  | str s, rest => writeString s rest
  | raw text, rest => text.toList ++ rest
  | arr [], rest => '[' :: ']' :: rest
  | arr (v :: vs), rest =>
    '[' :: newLine (level + 1) (prettyTo (level + 1) v
      (prettyItems (level + 1) vs (newLine level (']' :: rest))))
  | obj [], rest => '\x7b' :: '\x7d' :: rest
  | obj ((k, v) :: vs), rest =>
    '\x7b' :: newLine (level + 1) (writeString k (':' :: ' ' :: prettyTo (level + 1) v
      (prettyMembers (level + 1) vs (newLine level ('\x7d' :: rest)))))

/-- The items of an array after its first. -/
def prettyItems (level : Nat) : List Json → List Char → List Char
  | [], rest => rest
  | v :: vs, rest => ',' :: newLine level (prettyTo level v (prettyItems level vs rest))

/-- The members of an object after its first. -/
def prettyMembers (level : Nat) : List (String × Json) → List Char → List Char
  | [], rest => rest
  | (k, v) :: vs, rest =>
    ',' :: newLine level (writeString k (':' :: ' ' :: prettyTo level v
      (prettyMembers level vs rest)))

end

/-- The text of a value with an item a line. -/
def pretty (j : Json) : String := .ofList (j.prettyTo 0 [])

end Interleaving.Json
