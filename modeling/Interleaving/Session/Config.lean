import Interleaving.Files.Store
import Interleaving.Pattern.Matcher
import Interleaving.Strategy.Basic

/-!
# Configuration

The settings of a session, the strategies to choose from, and what settings are refused.
-/

namespace Interleaving

/-- The strategies to choose from. -/
inductive StrategyKind where
  | random
  | pct
  | pctcp
  | feedback
  | twoStageFeedback
  | feedbackPct
  | twoStageFeedbackPct
  | feedbackPctcp
  | pattern
deriving DecidableEq

namespace StrategyKind

/-- All kinds. -/
def all : List StrategyKind :=
  [random, pct, pctcp, feedback, twoStageFeedback, feedbackPct, twoStageFeedbackPct, feedbackPctcp,
    pattern]

/-- The name of a kind. -/
def text : StrategyKind → String
  | random => "random"
  | pct => "pct"
  | pctcp => "pctcp"
  | feedback => "feedback"
  | twoStageFeedback => "2stagefeedback"
  | feedbackPct => "feedbackpct"
  | twoStageFeedbackPct => "2stagefeedbackpct"
  | feedbackPctcp => "feedbackpctcp"
  | pattern => "pattern"

/-- The kind of a name. -/
def ofText? (name : String) : Option StrategyKind := all.find? (·.text == name)

/-- The kind of a name or of an older name for it. -/
def ofAlias? (name : String) : Option StrategyKind :=
  if name = "sch-random" then some random else ofText? name

/-- Whether a strategy demotes operations or chains at change points. -/
def usesSwitchPoints : StrategyKind → Bool
  | pct | pctcp | feedbackPct | twoStageFeedbackPct | feedbackPctcp => true
  | _ => false

/-- Whether a strategy mutates saved runs. -/
def isFeedback : StrategyKind → Bool
  | feedback | twoStageFeedback | feedbackPct | twoStageFeedbackPct | feedbackPctcp | pattern => true
  | _ => false

/-- Whether a strategy is guided by a pattern. -/
def needsPattern : StrategyKind → Bool
  | pattern => true
  | _ => false

/-- Whether a strategy's traces are marked as fair. -/
def isFair (k : StrategyKind) : Bool := !k.usesSwitchPoints

/-- How a strategy derives runs from saved ones. -/
def feedbackMode : StrategyKind → FeedbackMode
  | twoStageFeedback | twoStageFeedbackPct => .twoStage
  | _ => .oneStage

end StrategyKind

/-- Why settings are refused. -/
inductive ConfigError where
  | noIterations
  | stepBounds (unfair fair : UInt64)
  | noSwitchPoints (kind : StrategyKind)
  | missingPattern (kind : StrategyKind)
  | badPattern (error : Pattern.ParseError)
  | unknownStrategy (name : String)
  | unreadable (error : FileError)
  | notSettings
deriving DecidableEq

/-- The text of the error. -/
def ConfigError.message : ConfigError → String
  | noIterations => "iterations must be at least 1"
  | stepBounds unfair fair =>
    s!"max-steps {unfair},{fair} requires the fair bound to be at least the unfair bound"
  | noSwitchPoints kind => s!"strategy '{kind.text}' needs at least one switch point"
  | missingPattern kind => s!"strategy '{kind.text}' needs an event pattern"
  | badPattern error => s!"invalid event pattern: {error.message}"
  | unknownStrategy name => s!"unknown strategy '{name}'"
  | unreadable error => s!"I/O error: {error.message}"
  | notSettings => "invalid config file: not a JSON object of settings"

/-- The strategy of a name. -/
def StrategyKind.parse (name : String) : Except ConfigError StrategyKind :=
  match ofAlias? name with
  | some kind => .ok kind
  | none => .error (.unknownStrategy name)

/-- The settings of a session. -/
structure Config where
  /-- How many runs the session makes. -/
  iterations : UInt64
  seed : UInt64
  strategy : StrategyKind
  /-- How many change points there are in a run. -/
  strategyBound : UInt64
  /-- The bound on the steps of unfair strategies; `0` is no bound. -/
  maxUnfairSteps : UInt64
  /-- The bound on the steps of fair strategies; `0` is no bound. -/
  maxFairSteps : UInt64
  /-- The text of a pattern to follow. -/
  pattern : Option String
  /-- Whether to go on after the first bug. -/
  fullExploration : Bool
  /-- Whether reaching the bound on steps is a bug. -/
  failOnMaxSteps : Bool
  /-- How many seconds the session may take. -/
  timeoutSecs : Option UInt64
  /-- Written into the headers of traces. -/
  livenessThreshold : Option UInt64
  /-- Written into the headers of traces. -/
  testMethod : Option String
  feedbackSignal : FeedbackSignal
  /-- Where to write checkpoints and traces. -/
  outputDir : Option String
deriving DecidableEq

namespace Config

/-- The settings where nothing is said. -/
def standard : Config where
  iterations := 1
  seed := 42
  strategy := .random
  strategyBound := 10
  maxUnfairSteps := 10000
  maxFairSteps := 100000
  pattern := none
  fullExploration := false
  failOnMaxSteps := false
  timeoutSecs := none
  livenessThreshold := none
  testMethod := none
  feedbackSignal := .coverage
  outputDir := none

instance : Inhabited Config := ⟨standard⟩

/-- The matcher for the pattern, if there is one. -/
def compilePattern (c : Config) : Except ConfigError (Option Matcher) :=
  match c.pattern with
  | some text =>
    match Matcher.compile text with
    | .ok matcher => .ok (some matcher)
    | .error e => .error (.badPattern e)
  | none => .ok none

/-- Refuses settings under which no session can be run. -/
def validate (c : Config) : Except ConfigError Unit := do
  if c.iterations = 0 then throw .noIterations
  if c.maxFairSteps ≠ 0 ∧ (c.maxUnfairSteps = 0 ∨ c.maxFairSteps < c.maxUnfairSteps) then
    throw (.stepBounds c.maxUnfairSteps c.maxFairSteps)
  if c.strategy.usesSwitchPoints ∧ c.strategyBound = 0 then throw (.noSwitchPoints c.strategy)
  if c.strategy.needsPattern ∧ c.pattern.isNone then throw (.missingPattern c.strategy)
  let _ ← c.compilePattern

/-- The bound on the steps of a run. Fair strategies and those that learn have the bound of fair
ones. -/
def maxSteps (c : Config) : UInt64 :=
  if c.strategy.isFair || c.strategy.isFeedback then c.maxFairSteps else c.maxUnfairSteps

/-- The strategy without memory that the settings ask for. -/
def renewing (c : Config) (kind : ScheduleKind) : Strategy :=
  .renewing (.ofKind kind c.maxSteps.toNat c.strategy.isFair c.seed)

/-- The strategy that learns, as the settings ask for it. -/
def learning (c : Config) (kind : ScheduleKind) : Strategy :=
  .feedback (.ofKind kind c.maxSteps.toNat c.strategy.isFair c.seed c.strategy.feedbackMode
    c.feedbackSignal)

/-- Builds the strategy that the settings ask for, with the matcher for their pattern. -/
def buildStrategy (c : Config) (matcher : Option Matcher) : Except ConfigError Strategy :=
  let bound := c.strategyBound.toNat
  match c.strategy with
  | .random => .ok (c.renewing .random)
  | .pct => .ok (c.renewing (.pct bound .shuffled))
  | .pctcp => .ok (c.renewing (.pctcp bound))
  | .feedback | .twoStageFeedback => .ok (c.learning .random)
  | .feedbackPct | .twoStageFeedbackPct => .ok (c.learning (.pct bound .geometric))
  | .feedbackPctcp => .ok (c.learning (.pctcp bound))
  | .pattern =>
    match matcher with
    | some matcher => .ok (.guided (.ofEvents matcher.interesting) (c.learning .random))
    | none => .error (.missingPattern c.strategy)

end Config

end Interleaving
