import Interleaving.Json.Reader
import Interleaving.Json.Record
import Interleaving.Session.Bugs
import Interleaving.Session.Config
import Interleaving.Session.Coverage

/-!
# Settings, coverage, bugs and traces as JSON

How what a session works with is written as JSON and read back. Settings may be given in part; all
else must be complete.
-/

namespace Interleaving

open Json

namespace Config

/-- The fields of settings, in the order in which they are written. -/
def fieldNames : List String :=
  ["iterations", "seed", "strategy", "strategy_bound", "max_unfair_steps", "max_fair_steps",
    "pattern", "full_exploration", "fail_on_max_steps", "timeout_secs",
    "liveness_temperature_threshold", "test_method", "feedback_signal", "output_dir"]

/-- The JSON form of settings. -/
def toJson (c : Config) : Json :=
  .obj (fieldNames.zip
    [ofUInt64 c.iterations, ofUInt64 c.seed, str c.strategy.text, ofUInt64 c.strategyBound,
      ofUInt64 c.maxUnfairSteps, ofUInt64 c.maxFairSteps, ofOption str c.pattern,
      bool c.fullExploration, bool c.failOnMaxSteps, ofOption ofUInt64 c.timeoutSecs,
      ofOption ofUInt64 c.livenessThreshold, ofOption str c.testMethod,
      str c.feedbackSignal.text, ofOption str c.outputDir])

/-- Reads settings. Those that are not given have their standard values. -/
def ofJson? (j : Json) : Option Config := do
  let r ← record? fieldNames j
  let d := standard
  let iterations ← field? r "iterations" d.iterations uint64?
  let seed ← field? r "seed" d.seed uint64?
  let strategy ← field? r "strategy" d.strategy (choice? StrategyKind.ofText?)
  let strategyBound ← field? r "strategy_bound" d.strategyBound uint64?
  let maxUnfairSteps ← field? r "max_unfair_steps" d.maxUnfairSteps uint64?
  let maxFairSteps ← field? r "max_fair_steps" d.maxFairSteps uint64?
  let pattern ← field? r "pattern" d.pattern (optional? str?)
  let fullExploration ← field? r "full_exploration" d.fullExploration bool?
  let failOnMaxSteps ← field? r "fail_on_max_steps" d.failOnMaxSteps bool?
  let timeoutSecs ← field? r "timeout_secs" d.timeoutSecs (optional? uint64?)
  let livenessThreshold ←
    field? r "liveness_temperature_threshold" d.livenessThreshold (optional? uint64?)
  let testMethod ← field? r "test_method" d.testMethod (optional? str?)
  let feedbackSignal ← field? r "feedback_signal" d.feedbackSignal (choice? FeedbackSignal.ofText?)
  let outputDir ← field? r "output_dir" d.outputDir (optional? str?)
  return { iterations, seed, strategy, strategyBound, maxUnfairSteps, maxFairSteps, pattern,
           fullExploration, failOnMaxSteps, timeoutSecs, livenessThreshold, testMethod,
           feedbackSignal, outputDir }

/-- Reads settings from their JSON text. -/
def parse (text : String) : Except ConfigError Config :=
  match (Json.parse? text).bind ofJson? with
  | some c => .ok c
  | none => .error .notSettings

/-- Reads settings from a file. -/
def load {m : Type → Type} [Monad m] (store : FileStore m) (path : String) :
    m (Except ConfigError Config) := do
  match ← store.read path with
  | .ok text => return parse text
  | .error error => return .error (.unreadable error)

end Config

namespace EventCoverage

/-- The JSON form of coverage. -/
def toJson (c : EventCoverage) : Json :=
  .obj [("hits", .obj (c.hits.toList.map fun (pair, n) => (pair, ofUInt32 n)))]

/-- Reads coverage. Of two counts for one pair, the later one holds. -/
def ofJson? (j : Json) : Option EventCoverage := do
  let r ← record? ["hits"] j
  let members ← required? r "hits" obj?
  let hits ← members.mapM fun (pair, n) => n.uint32?.map (pair, ·)
  return ⟨.ofList hits⟩

end EventCoverage

namespace BugReport

/-- The fields of a bug, in the order in which they are written. -/
def fieldNames : List String := ["bug_id", "iteration", "message", "steps", "strategy", "trace"]

/-- The JSON form of a bug. -/
def toJson (b : BugReport) : Json :=
  .obj (fieldNames.zip
    [ofUInt64 b.bugId, ofUInt64 b.iteration, str b.message, ofUInt64 b.steps, str b.strategy,
      str b.trace])

/-- Reads a bug. -/
def ofJson? (j : Json) : Option BugReport := do
  let r ← record? fieldNames j
  let bugId ← required? r "bug_id" uint64?
  let iteration ← required? r "iteration" uint64?
  let message ← required? r "message" str?
  let steps ← required? r "steps" uint64?
  let strategy ← required? r "strategy" str?
  let trace ← required? r "trace" str?
  return { bugId, iteration, message, steps, strategy, trace }

end BugReport

/-- The JSON form of a decision: its sort as the key of its value. -/
def TraceStep.toJson : TraceStep → Json
  | schedule id => .obj [("Schedule", ofUInt64 id)]
  | boolean b => .obj [("Boolean", bool b)]
  | integer n => .obj [("Integer", ofUInt64 n)]

/-- The JSON form of a trace. -/
def Trace.toJson (t : Trace) : Json :=
  .obj [("steps", ofList TraceStep.toJson t.steps.toList), ("fair_scheduling", bool t.fairScheduling),
    ("liveness_temperature_threshold", ofOption ofUInt64 t.livenessThreshold),
    ("test_method", ofOption str t.testMethod)]

end Interleaving
