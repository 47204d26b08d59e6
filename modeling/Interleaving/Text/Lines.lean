import Interleaving.Text.CharClass

/-!
# Lines, margins and numerals

How a text is cut into lines and put together from them, freed of blanks at its ends, filled up to a
width, and read as a number.
-/

namespace Interleaving.Text

/-- Cuts a text after each line feed; `line` holds the present line, last character first. A line
loses its line feed and one carriage return before it. A last line without a line feed counts,
unless it is empty, and keeps all it has. -/
def linesFrom (line : List Char) : List Char → List (List Char)
  | [] => if line.isEmpty then [] else [line.reverse]
  | '\n' :: rest =>
    let ended := match line with
      | '\r' :: before => before
      | _ => line
    ended.reverse :: linesFrom [] rest
  | c :: rest => linesFrom (c :: line) rest

/-- The lines of a text. -/
def lines (s : String) : List String := (linesFrom [] s.toList).map .ofList

/-- Lines with their line ends. -/
def ofLines (lines : List String) : String := String.join (lines.map (· ++ "\n"))

/-- A text filled up to a width. -/
def padded (width : Nat) (filler : Char) (text : String) : String :=
  text.pushn filler (width - text.length)

/-- A text without the blanks at its start. -/
def trimStart (cs : List Char) : List Char := cs.dropWhile isBlank

/-- A text without the blanks at its end. -/
def trimEnd (cs : List Char) : List Char := (cs.reverse.dropWhile isBlank).reverse

/-- A text without the blanks at its two ends. -/
def trim (s : String) : String := .ofList (trimEnd (trimStart s.toList))

/-- The value of a non-empty row of decimal digits, continuing from `acc`. -/
def digitsValue? (acc : Nat) : List Char → Option Nat
  | [] => some acc
  | c :: rest => if c.isDigit then digitsValue? (10 * acc + (c.toNat - '0'.toNat)) rest else none

/-- Reads a natural number: decimal digits, after a plus sign or not. -/
def readNat? (s : String) : Option Nat :=
  match s.toList with
  | [] => none
  | '+' :: c :: rest => digitsValue? 0 (c :: rest)
  | c :: rest => digitsValue? 0 (c :: rest)

/-- Reads a number below `2 ^ 64`. -/
def readUInt64? (s : String) : Option UInt64 :=
  (readNat? s).bind fun n => if n < UInt64.size then some (.ofNat n) else none

end Interleaving.Text
