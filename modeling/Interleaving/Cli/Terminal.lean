import Interleaving.Files.Tree

/-!
# Terminals

What a command uses of the world around it. A transcript stands in for a terminal where there is
none.
-/

namespace Interleaving.Cli

/-- Where a command reads, writes, prints and looks at the clock. -/
structure Terminal (m : Type → Type) where
  files : FileStore m
  /-- Prints a text. -/
  print : String → m Unit
  /-- Prints a text about the command's progress or an error. -/
  printError : String → m Unit
  /-- The time since the start. -/
  elapsedNanos : m Nat

/-- Files, and what has been printed. -/
structure Transcript where
  tree : FileTree
  printed : String
  errors : String

namespace Transcript

/-- Uses the files of a transcript. -/
def onTree {α : Type} (x : StateM FileTree α) : StateM Transcript α := fun t =>
  let (a, tree) := x.run t.tree |>.run
  (a, { t with tree })

/-- A transcript as a terminal, on which no time passes. -/
def terminal : Terminal (StateM Transcript) where
  files := {
    read path := onTree (FileTree.store.read path)
    write path text := onTree (FileTree.store.write path text)
    createDirectories path := onTree (FileTree.store.createDirectories path)
    isDirectory path := onTree (FileTree.store.isDirectory path) }
  print text := modify fun t => { t with printed := t.printed ++ text }
  printError text := modify fun t => { t with errors := t.errors ++ text }
  elapsedNanos := return 0

end Transcript

end Interleaving.Cli
