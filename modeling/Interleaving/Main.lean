import Interleaving.Cli.Run

/-!
# The command line

Commands on the files, the streams and the clock of the system.
-/

namespace Interleaving.Cli

/-- The cause of a refusal by the system. -/
def fileError : IO.Error → FileError
  | .noFileOrDirectory .. => .notFound
  | .alreadyExists .. => .alreadyExists
  | .inappropriateType _ 20 _ => .notADirectory
  | .inappropriateType _ 21 _ => .isADirectory
  | .invalidArgument _ 36 _ => .nameTooLong
  | e => .other (toString e)

/-- Does something with a path that the system may refuse. -/
def attempt {α : Type} (path : String) (x : IO α) : IO (Except FileError α) := do
  if path.toList.contains '\x00' then return .error .nullByte
  try return .ok (← x) catch e => return .error (fileError e)

/-- The files of the system. -/
def systemFiles : FileStore IO where
  read path := do
    match ← attempt path (IO.FS.readBinFile path) with
    | .ok bytes =>
      match String.fromUTF8? bytes with
      | some text => return .ok text
      | none => return .error .notUnicode
    | .error e => return .error e
  write path text := attempt path (IO.FS.writeFile path text)
  createDirectories path := attempt path (if path.isEmpty then pure () else IO.FS.createDirAll path)
  isDirectory path := do
    match ← attempt path (IO.FS.realPath path) with
    | .ok place => place.isDir
    | .error _ => return false

/-- The terminal of a command that was started at a time. -/
def systemTerminal (startNanos : Nat) : Terminal IO where
  files := systemFiles
  print text := IO.print text
  printError text := IO.eprint text
  elapsedNanos := do return (← IO.monoNanosNow) - startNanos

end Interleaving.Cli

/-- Runs the command that the arguments ask for. -/
def main (args : List String) : IO UInt32 := do
  Interleaving.Cli.run (Interleaving.Cli.systemTerminal (← IO.monoNanosNow)) args
