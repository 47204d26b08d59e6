import Interleaving.Files.Store

/-!
# Paths

How the text of a path is read: names with slashes between them. Some texts are no path at all, and
one that ends in a slash can only lead to a directory.
-/

namespace Interleaving

/-- A way through a tree of files. -/
structure TreePath where
  /-- Whether the way starts at the root and not at the working directory. -/
  absolute : Bool
  names : List String
  /-- Whether a slash follows the last name. -/
  slash : Bool
deriving DecidableEq

namespace TreePath

/-- The largest number of bytes in a name. -/
def maxNameLength : Nat := 255

/-- The largest number of bytes in a path. -/
def maxLength : Nat := 4095

/-- Reads a path. -/
def parse (text : String) : Except FileError TreePath :=
  if text.toList.contains '\x00' then .error .nullByte
  else if text.isEmpty then .error .notFound
  else if maxLength < text.utf8ByteSize then .error .nameTooLong
  else .ok ⟨text.startsWith "/", (text.splitOn "/").filter (!·.isEmpty), text.endsWith "/"⟩

/-- The paths to the directories above a place, the nearest first. A dot only asks for the directory
that it stands in, so that it does not lead down. -/
def above (p : TreePath) : List TreePath :=
  let names := p.names.filter (· != ".")
  (List.range names.length).reverse.map fun n => ⟨p.absolute, names.take n, false⟩

end TreePath

end Interleaving
