import Interleaving.Text.CharClass

/-!
# Quoted text

How a text or a single character is written between quotes: line ends, tabs, null characters,
backslashes and the surrounding quote get a short escape, hidden characters their code point in
hexadecimal, and all else stands as it is.
-/

namespace Interleaving.Text

/-- The written form of one character between two `quote`s. -/
def escape (quote c : Char) : List Char :=
  if c = '\x00' then ['\\', '0']
  else if c = '\t' then ['\\', 't']
  else if c = '\r' then ['\\', 'r']
  else if c = '\n' then ['\\', 'n']
  else if c = '\\' || c = quote then ['\\', c]
  else if isHidden c then '\\' :: 'u' :: '\x7b' :: Nat.toDigits 16 c.toNat ++ ['\x7d']
  else [c]

/-- A text between double quotes, as characters. -/
def quotedChars (cs : List Char) : List Char := '"' :: cs.flatMap (escape '"') ++ ['"']

/-- A text between double quotes. -/
def quoted (s : String) : String := .ofList (quotedChars s.toList)

/-- A character between single quotes. -/
def quotedChar (c : Char) : String := .ofList ('\'' :: escape '\'' c ++ ['\''])

end Interleaving.Text
