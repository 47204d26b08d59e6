/-!
# Files

What is asked of a place where files are kept, and what may go wrong. The place is a parameter, so
that the same code works on a disk and on a tree held in memory.
-/

namespace Interleaving

/-- Why a file or directory cannot be used. -/
inductive FileError where
  | notFound
  | notADirectory
  | isADirectory
  | alreadyExists
  | notUnicode
  /-- A path or one of its names has too many bytes. -/
  | nameTooLong
  /-- A null character stands in a path. -/
  | nullByte
  /-- Any other reason, in the words of the system. -/
  | other (reason : String)
deriving DecidableEq

/-- The text of a file error. -/
def FileError.message : FileError → String
  | notFound => "No such file or directory (os error 2)"
  | notADirectory => "Not a directory (os error 20)"
  | isADirectory => "Is a directory (os error 21)"
  | alreadyExists => "File exists (os error 17)"
  | notUnicode => "stream did not contain valid UTF-8"
  | nameTooLong => "File name too long (os error 36)"
  | nullByte => "file name contained an unexpected NUL byte"
  | other reason => reason

/-- A place where files are kept. -/
structure FileStore (m : Type → Type) where
  /-- The text of a file. -/
  read : String → m (Except FileError String)
  /-- Makes or replaces a file. -/
  write : String → String → m (Except FileError Unit)
  /-- Makes a directory and those above it, as far as they do not exist. -/
  createDirectories : String → m (Except FileError Unit)
  isDirectory : String → m Bool

/-- A file in a directory. -/
def FileStore.join (directory file : String) : String :=
  if directory.isEmpty then file
  else if directory.endsWith "/" then directory ++ file
  else directory ++ "/" ++ file

end Interleaving
