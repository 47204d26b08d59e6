import Interleaving.Pattern.Tree
import Interleaving.Text.Quoted

/-!
# Outlines of patterns

The shape of a pattern tree, one part a line, each level indented by four blanks.
-/

namespace Interleaving.Pattern

/-- A part after its label: one level deeper, and with a comma after its last line. -/
def outlinePart (label : String) : List String → List String
  | [] => []
  | [line] => [s!"    {label}{line},"]
  | line :: rest =>
    s!"    {label}{line}" :: ((rest.dropLast.map ("    " ++ ·)) ++
      (rest.getLast?.toList.map fun last => s!"    {last},"))

/-- Lines between an opening and a closing bracket. -/
def bracketed (opening closing : String) (lines : List String) : List String :=
  opening :: lines ++ [closing]

/-- The outline of the conditions of an event term. -/
def conditionsOutline (conditions : List (String × String)) : List String :=
  if conditions.isEmpty then ["\x7b\x7d"]
  else bracketed "\x7b" "\x7d"
    (conditions.flatMap fun (field, value) =>
      outlinePart "" [Text.quoted field ++ ": " ++ Text.quoted value])

/-- The outline of an event term. -/
def termOutline (t : EventTerm) : List String :=
  bracketed "EventNode \x7b" "\x7d"
    (outlinePart "name: " [Text.quoted t.name] ++
      outlinePart "constraints: " (conditionsOutline t.constraints.toList))

/-- The outline of a pattern with two parts. -/
def binaryOutline (op : String) (left right : List String) : List String :=
  bracketed "Binary \x7b" "\x7d"
    (outlinePart "op: " [op] ++ outlinePart "left: " left ++ outlinePart "right: " right)

/-- The outline of a pattern with one part. -/
def unaryOutline (op : String) (inner : List String) : List String :=
  bracketed "Unary \x7b" "\x7d" (outlinePart "op: " [op] ++ outlinePart "inner: " inner)

/-- The outline of a pattern. -/
def outline : Pattern → List String
  | empty => ["Epsilon"]
  | event t => bracketed "Event(" ")" (outlinePart "" (termOutline t))
  | alt l r => binaryOutline "Alternation" l.outline r.outline
  | seq l r => binaryOutline "Concatenation" l.outline r.outline
  | star p => unaryOutline "Star" p.outline
  | maybe p => unaryOutline "Maybe" p.outline

end Interleaving.Pattern
