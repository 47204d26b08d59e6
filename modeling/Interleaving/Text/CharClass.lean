import Interleaving.Text.CharClass.Alphabetic
import Interleaving.Text.CharClass.Extending
import Interleaving.Text.CharClass.Numeric
import Interleaving.Text.CharClass.Unprintable

/-!
# Classes of characters

The Unicode properties by which names are told from blanks, and printable text from text that has
to be escaped.
-/

namespace Interleaving.Text

/-- Whether `n` is in the set that starts with state `within` and changes at each boundary of an
increasing list. -/
def withinBounds (n : Nat) (within : Bool) : List Nat → Bool
  | [] => within
  | b :: bs => if n < b then within else withinBounds n (!within) bs

/-- Whether a character lies in the class that a table of boundaries describes. -/
def inClass (bounds : List Nat) (c : Char) : Bool := withinBounds c.toNat false bounds

/-- Letters, and the signs and numerals that count as letters. -/
def isAlphabetic (c : Char) : Bool := inClass alphabeticBounds c

/-- Letters, digits and other numbers. -/
def isAlphanumeric (c : Char) : Bool := isAlphabetic c || inClass numericBounds c

/-- Where the property White_Space begins and ends. -/
def blankBounds : List Nat := [
  0x9, 0xe, 0x20, 0x21, 0x85, 0x86, 0xa0, 0xa1, 0x1680, 0x1681, 0x2000, 0x200b, 0x2028, 0x202a,
  0x202f, 0x2030, 0x205f, 0x2060, 0x3000, 0x3001]

/-- Spaces, tabs, line ends and the other characters with the property White_Space. -/
def isBlank (c : Char) : Bool := inClass blankBounds c

/-- Where the letters without a visible form begin and end: the fillers of the Hangul script. -/
def fillerBounds : List Nat := [0x115f, 0x1161, 0x3164, 0x3165, 0xffa0, 0xffa1]

/-- Where the voicing marks of half width begin and end. They extend the character before them but
stand in a place of their own. -/
def voicingBounds : List Nat := [0xff9e, 0xffa0]

/-- Whether a character joins onto the one before it. -/
def isJoining (c : Char) : Bool := inClass extendingBounds c && !inClass voicingBounds c

/-- Characters that show as nothing or join onto their neighbour; quoted text writes them as
escapes. The plain space is not one of them. -/
def isHidden (c : Char) : Bool :=
  isJoining c || inClass fillerBounds c || (c != ' ' && inClass unprintableBounds c)

end Interleaving.Text
