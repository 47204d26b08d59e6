import Interleaving.Json.Reader
import Interleaving.Json.Writer
import Interleaving.Session.Encoding

/-!
# Checkpoints

What is kept of a session so that a later one can go on from it: settings, coverage, bugs and
counts. The state of the strategy is not kept. The later session starts its strategy from a seed of
its own, so that it draws other schedules.
-/

namespace Interleaving

/-- Why a checkpoint cannot be loaded or saved. -/
inductive CheckpointError where
  | file (error : FileError)
  | notACheckpoint
deriving DecidableEq

/-- The text of the error. -/
def CheckpointError.message : CheckpointError → String
  | file _ => "I/O error"
  | notACheckpoint => "JSON error"

/-- What is kept of a session. -/
structure Checkpoint where
  config : Config
  coverage : EventCoverage
  bugs : List BugReport
  /-- How many runs all sessions so far have made. -/
  iterationsCompleted : UInt64
  /-- How many decisions those runs had. -/
  totalSteps : UInt64
deriving DecidableEq

namespace Checkpoint

open Json

/-- The seed of the strategy of the next session. -/
def resumeSeed (c : Checkpoint) : UInt64 := c.config.seed + c.iterationsCompleted

/-- The fields of a checkpoint, in the order in which they are written. -/
def fieldNames : List String :=
  ["config", "global_coverage", "bugs", "iterations_completed", "total_steps"]

/-- The JSON form of a checkpoint. -/
def toJson (c : Checkpoint) : Json :=
  .obj (fieldNames.zip
    [c.config.toJson, c.coverage.toJson, ofList BugReport.toJson c.bugs,
      ofUInt64 c.iterationsCompleted, ofUInt64 c.totalSteps])

/-- Reads a checkpoint. -/
def ofJson? (j : Json) : Option Checkpoint := do
  let r ← record? fieldNames j
  let config ← required? r "config" Config.ofJson?
  let coverage ← required? r "global_coverage" EventCoverage.ofJson?
  let bugs ← required? r "bugs" (list? BugReport.ofJson?)
  let iterationsCompleted ← required? r "iterations_completed" uint64?
  let totalSteps ← required? r "total_steps" uint64?
  return { config, coverage, bugs, iterationsCompleted, totalSteps }

/-- The text of a checkpoint. -/
def text (c : Checkpoint) : String := c.toJson.pretty

/-- Reads a checkpoint from its text. -/
def parse? (text : String) : Option Checkpoint := (Json.parse? text).bind ofJson?

variable {m : Type → Type} [Monad m]

/-- Reads a checkpoint from a file. -/
def load (store : FileStore m) (path : String) : m (Except CheckpointError Checkpoint) := do
  match ← store.read path with
  | .ok text =>
    match parse? text with
    | some c => return .ok c
    | none => return .error .notACheckpoint
  | .error error => return .error (.file error)

/-- Writes a checkpoint to a file. -/
def save (store : FileStore m) (path : String) (c : Checkpoint) :
    m (Except CheckpointError Unit) := do
  return (← store.write path c.text).mapError .file

end Checkpoint

end Interleaving
