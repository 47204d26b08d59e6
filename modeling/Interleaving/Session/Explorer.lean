import Interleaving.Session.Checkpoint
import Interleaving.Session.Execution
import Interleaving.Session.Report
import Interleaving.Strategy.Basic

/-!
# Sessions

A session runs a program again and again under one strategy, which learns from each run. It ends
when its runs are used up, when a bug is found, or when the strategy has nothing left to explore.
What it has found can be kept in a checkpoint, from which another session goes on.
-/

namespace Interleaving

/-- Why a session cannot be started or gone on with. -/
inductive ExploreError where
  | config (error : ConfigError)
  | strategy (error : StrategyError)
  /-- A run has not come to its end. -/
  | unfinished
deriving DecidableEq

/-- The text of the error. -/
def ExploreError.message : ExploreError → String
  | config error => s!"Configuration error: {error.message}"
  | strategy error => s!"Scheduler error: {error.message}"
  | unfinished => "Run without end"

/-- The counts of a session. -/
structure SessionStats where
  iterations : UInt64
  steps : UInt64
  pairs : Nat
  bugs : Nat
  races : Nat
deriving DecidableEq

/-- A session of a program with states in `σ` under a strategy with states in `S`. -/
structure Explorer (σ S : Type) where
  config : Config
  program : Program σ
  /-- The last run, or one that has not begun. -/
  execution : Execution σ S
  coverage : CoverageCollector
  bugs : BugLog
  /-- Whether the session is to end before its next run. -/
  stopRequested : Bool
  /-- The number of runs of this session and of those that it goes on from. -/
  iterationsCompleted : UInt64
  /-- The number of decisions in those runs. -/
  totalSteps : UInt64

namespace Explorer

section Start

variable {σ S : Type}

/-- A session before its first run. -/
def start (config : Config) (program : Program σ) (matcher : Option Matcher) (strategy : S) :
    Explorer σ S where
  config := config
  program := program
  execution := ⟨program.initial, strategy, .empty, .empty, .ofMatcher matcher, none⟩
  coverage := .empty
  bugs := .empty
  stopRequested := false
  iterationsCompleted := 0
  totalSteps := 0

/-- A session under a given strategy. -/
def withStrategy (config : Config) (program : Program σ) (strategy : S) :
    Except ConfigError (Explorer σ S) := do
  config.validate
  return start config program (← config.compilePattern) strategy

/-- A session under the strategy that the settings ask for. -/
def new (config : Config) (program : Program σ) : Except ConfigError (Explorer σ Strategy) := do
  config.validate
  let matcher ← config.compilePattern
  return start config program matcher (← config.buildStrategy matcher)

/-- The settings under which a trace is replayed: one run, with the headers of the trace. -/
def replayConfig (config : Config) (trace : Trace) : Config :=
  { config with
    iterations := 1
    fullExploration := false
    livenessThreshold := trace.livenessThreshold
    testMethod := trace.testMethod }

/-- A session that repeats a trace. The bound on steps is that of the strategy which the settings
ask for, since it is the one under which the trace was recorded. -/
def forReplay (config : Config) (program : Program σ) (trace : Trace) :
    Except ConfigError (Explorer σ Strategy) :=
  let config := replayConfig config trace
  withStrategy config program (.replay (.ofTrace trace config.maxSteps.toNat))

/-- A session that goes on from a checkpoint, with another number of runs if one is given. -/
def ofCheckpoint (checkpoint : Checkpoint) (program : Program σ) (iterations : Option UInt64) :
    Except ConfigError (Explorer σ Strategy) := do
  let config :=
    { checkpoint.config with iterations := iterations.getD checkpoint.config.iterations }
  config.validate
  let matcher ← config.compilePattern
  let strategy ← { config with seed := checkpoint.resumeSeed }.buildStrategy matcher
  return {
    start config program matcher strategy with
    coverage := ⟨checkpoint.coverage, checkpoint.iterationsCompleted⟩
    bugs := .ofReports checkpoint.bugs
    iterationsCompleted := checkpoint.iterationsCompleted
    totalSteps := checkpoint.totalSteps }

/-- What is kept of a session. -/
def checkpoint (x : Explorer σ S) : Checkpoint where
  config := x.config
  coverage := x.coverage.total
  bugs := x.bugs.bugs.toList
  iterationsCompleted := x.iterationsCompleted
  totalSteps := x.totalSteps

/-- The counts of a session. -/
def stats (x : Explorer σ S) : SessionStats where
  iterations := x.iterationsCompleted
  steps := x.totalSteps
  pairs := x.coverage.total.count
  bugs := x.bugs.bugs.size
  races := x.execution.monitor.count

/-- The files in which a session is kept: the checkpoint, and the trace of each bug. -/
def files (x : Explorer σ S) : List (String × String) :=
  ("checkpoint.json", x.checkpoint.text) ::
    x.bugs.bugs.toList.map fun bug => (s!"bug-{bug.bugId}.trace", bug.trace)

/-- Writes files one after the other, until one cannot be written. -/
def writeAll {m : Type → Type} [Monad m] (store : FileStore m) (directory : String) :
    List (String × String) → m (Except FileError Unit)
  | [] => return .ok ()
  | (name, text) :: rest => do
    match ← store.write (FileStore.join directory name) text with
    | .ok () => writeAll store directory rest
    | .error error => return .error error

/-- Keeps a session in a directory. -/
def save {m : Type → Type} [Monad m] (store : FileStore m) (directory : String)
    (x : Explorer σ S) : m (Except FileError Unit) := do
  match ← store.createDirectories directory with
  | .ok () => writeAll store directory x.files
  | .error error => return .error error

end Start

section Runs

variable {σ S : Type} [Scheduler S]

/-- The next run before its first step. Only the strategy and the races found are taken over. -/
def nextExecution (x : Explorer σ S) : Execution σ S where
  state := x.program.initial
  strategy := x.execution.strategy
  trace :=
    { Trace.empty with
      fairScheduling := Scheduler.isFair x.execution.strategy
      livenessThreshold := x.config.livenessThreshold
      testMethod := x.config.testMethod }
  monitor := x.execution.monitor.reset
  observer := x.execution.observer.reset
  bug := none

/-- The message for a run that reaches the bound on steps. -/
def boundMessage (steps : Nat) : String := s!"reached the maximum of {steps} steps"

/-- Adds the bug of the present run, if it has one. -/
def addBug (x : Explorer σ S) (iteration : UInt64) (steps : Nat) : Option String → Explorer σ S
  | some message =>
    { x with
      bugs := (x.bugs.add {
        bugId := 0
        iteration
        message
        steps := .ofNat steps
        strategy := Scheduler.description x.execution.strategy
        trace := x.execution.trace.text }).2 }
  | none => x

/-- Counts in a run that has come to its end: coverage, what the strategy learns, and the bug. -/
def finish (x : Explorer σ S) (e : Execution σ S) (reachedMaxSteps : Bool) :
    IterationReport × Explorer σ S :=
  let iteration := x.iterationsCompleted
  let steps := Scheduler.scheduledSteps e.strategy
  let bug :=
    if reachedMaxSteps && x.config.failOnMaxSteps then some (boundMessage steps) else e.bug
  let (newCoverage, coverage) := x.coverage.update e.observer.coverage
  let summary := e.observer.summary steps bug.isSome
  let counted :=
    { x with
      execution := { e with strategy := Scheduler.observe e.strategy summary }
      coverage
      iterationsCompleted := x.iterationsCompleted + 1
      totalSteps := x.totalSteps + UInt64.ofNat steps }
  (⟨iteration, .ofNat steps, newCoverage, summary.patternMatched, reachedMaxSteps, bug⟩,
    counted.addBug iteration steps bug)

/-- Makes one run, of at most `fuel` operations. -/
def runIteration (fuel : Nat) (x : Explorer σ S) :
    Except ExploreError IterationReport × Explorer σ S :=
  match x.nextExecution.run x.program fuel with
  | (.failed error, execution) => (.error (.strategy error), { x with execution })
  | (.unfinished, execution) => (.error .unfinished, { x with execution })
  | (.bound, e) => (x.finish e true).map .ok id
  | (_, e) => (x.finish e false).map .ok id

/-- Gets the strategy ready for another run; false if there is nothing left to explore. -/
def prepare (x : Explorer σ S) : Bool × Explorer σ S :=
  let (more, strategy) := Scheduler.prepare x.execution.strategy
  (more, { x with execution := { x.execution with strategy } })

/-- Whether the session has taken the time that it may take. -/
def timedOut (x : Explorer σ S) (elapsedNanos : Nat) : Bool :=
  x.config.timeoutSecs.any fun limit => limit.toNat * 1000000000 ≤ elapsedNanos

/-- Makes up to so many runs, after those that `rows` tells of. Between runs the session looks at
the time and at the wish to stop. -/
def rounds {m : Type → Type} [Monad m] (fuel : Nat) (elapsed : m Nat) :
    Nat → Array IterationReport → Explorer σ S →
      m (Except ExploreError (Array IterationReport × StopReason) × Explorer σ S)
  | 0, rows, x => return (.ok (rows, .iterationsExhausted), x)
  | left + 1, rows, x => do
    if x.stopRequested then return (.ok (rows, .stopped), x)
    if x.timedOut (← elapsed) then return (.ok (rows, .timedOut), x)
    match x.runIteration fuel with
    | (.error error, x) => return (.error error, x)
    | (.ok row, x) =>
      let rows := rows.push row
      if row.bug.isSome && !x.config.fullExploration then return (.ok (rows, .bugFound), x)
      if left = 0 then return (.ok (rows, .iterationsExhausted), x)
      match x.prepare with
      | (true, x) => rounds fuel elapsed left rows x
      | (false, x) => return (.ok (rows, .strategyExhausted), x)

/-- What is told of the session and of the runs in `rows`. -/
def report (x : Explorer σ S) (rows : Array IterationReport) (stopReason : StopReason)
    (elapsedNanos : Nat) : Report where
  program := x.program.name
  strategy := Scheduler.description x.execution.strategy
  iterations := x.iterationsCompleted
  totalSteps := x.totalSteps
  stopReason := stopReason
  bugs := x.bugs.bugs.toList
  pairs := x.coverage.total.count
  runs := x.coverage.runs
  racing := x.execution.monitor.pairs.toList
  feedback := Scheduler.stats x.execution.strategy
  patternMatches := rows.countP (·.patternMatched)
  rows := rows.toList
  elapsedNanos := elapsedNanos

/-- Makes the runs of a session, each of at most `fuel` operations. `elapsed` gives the time since
the start. -/
def run {m : Type → Type} [Monad m] (fuel : Nat) (elapsed : m Nat) (x : Explorer σ S) :
    m (Except ExploreError Report × Explorer σ S) := do
  match ← rounds fuel elapsed x.config.iterations.toNat #[] x with
  | (.ok (rows, reason), x) => return (.ok (x.report rows reason (← elapsed)), x)
  | (.error error, x) => return (.error error, x)

/-- Makes the runs of a session and keeps it in the directory that the settings name. That it cannot
be kept does not make the session fail. -/
def explore {m : Type → Type} [Monad m] (store : FileStore m) (fuel : Nat) (elapsed : m Nat)
    (x : Explorer σ S) : m (Except ExploreError Report × Explorer σ S) := do
  match ← x.run fuel elapsed with
  | (.error error, x) => return (.error error, x)
  | (.ok report, x) =>
    if let some directory := x.config.outputDir then
      let _ ← x.save store directory
    return (.ok report, x)

end Runs

end Explorer

end Interleaving
