import Interleaving.Cli.Arguments
import Interleaving.Session.Config
import Interleaving.Text.Lines

/-!
# Commands

What the command line can ask for.
-/

namespace Interleaving.Cli

/-- What a new session is asked to do. What is not given is left to the settings. -/
structure DemoOptions where
  /-- A file with settings. -/
  config : Option String
  strategy : Option StrategyKind
  iterations : Option UInt64
  seed : Option UInt64
  bound : Option UInt64
  maxUnfairSteps : Option UInt64
  maxFairSteps : Option UInt64
  pattern : Option String
  signal : Option FeedbackSignal
  full : Bool
  failOnMaxSteps : Bool
  timeout : Option UInt64
  /-- How many clients the program has. -/
  clients : UInt64
  /-- The directory for what is found. -/
  output : Option String
deriving DecidableEq

/-- Settings with what the command line gives instead. -/
def DemoOptions.override (o : DemoOptions) (c : Config) : Config where
  iterations := o.iterations.getD c.iterations
  seed := o.seed.getD c.seed
  strategy := o.strategy.getD c.strategy
  strategyBound := o.bound.getD c.strategyBound
  maxUnfairSteps := o.maxUnfairSteps.getD c.maxUnfairSteps
  maxFairSteps := o.maxFairSteps.getD c.maxFairSteps
  pattern := o.pattern.or c.pattern
  fullExploration := c.fullExploration || o.full
  failOnMaxSteps := c.failOnMaxSteps || o.failOnMaxSteps
  timeoutSecs := o.timeout.or c.timeoutSecs
  livenessThreshold := c.livenessThreshold
  testMethod := c.testMethod
  feedbackSignal := o.signal.getD c.feedbackSignal
  outputDir := o.output.or c.outputDir

/-- What the command line asks for. -/
inductive Command where
  /-- A session of the program with racing clients. -/
  | demo (options : DemoOptions)
  /-- A run that repeats a trace. -/
  | replay (trace : String) (config : Option String) (clients : UInt64)
  /-- A session that goes on from the one kept in a directory. -/
  | resume (corpus : String) (iterations : Option UInt64) (clients : UInt64)
  /-- Shows a pattern and matches events against it. -/
  | pattern (source : String) (events : Option String)
deriving DecidableEq

namespace Command

/-- An option that takes a text. -/
def text (name : String) (letter : Option Char) : Switch := ⟨name, letter, some fun _ => true⟩

/-- An option that takes a number. -/
def number (name : String) (letter : Option Char) : Switch :=
  ⟨name, letter, some fun value => (Text.readUInt64? value).isSome⟩

/-- An option without a value. -/
def flag (name : String) : Switch := ⟨name, none, none⟩

/-- What a new session takes. -/
def demoUsage : Usage where
  switches :=
    [text "config" none,
      ⟨"strategy", some 's', some fun value => (StrategyKind.ofAlias? value).isSome⟩,
      number "iterations" (some 'i'), number "seed" none, number "bound" (some 'b'),
      number "max-unfair-steps" none, number "max-fair-steps" none, text "pattern" (some 'p'),
      ⟨"signal", none, some fun value => (FeedbackSignal.ofAlias? value).isSome⟩,
      flag "full", flag "fail-on-max-steps", number "timeout" none, number "clients" (some 'c'),
      text "output" (some 'o')]
  operands := 0

/-- What the repetition of a trace takes. -/
def replayUsage : Usage where
  switches := [text "config" none, number "clients" (some 'c')]
  operands := 1

/-- What a session that goes on takes. -/
def resumeUsage : Usage where
  switches := [text "corpus" (some 'c'), number "iterations" (some 'i'), number "clients" none]
  operands := 0

/-- What showing a pattern takes. -/
def patternUsage : Usage where
  switches := [text "events" (some 'e')]
  operands := 1

/-- The value of an option that takes a number. -/
def number? (a : Arguments) (name : String) : Option UInt64 :=
  (a.value? name).bind Text.readUInt64?

/-- How many clients the program has. -/
def clients (a : Arguments) : UInt64 := (number? a "clients").getD 2

/-- What a new session is asked to do. -/
def demoOptions (a : Arguments) : DemoOptions where
  config := a.value? "config"
  strategy := (a.value? "strategy").bind StrategyKind.ofAlias?
  iterations := number? a "iterations"
  seed := number? a "seed"
  bound := number? a "bound"
  maxUnfairSteps := number? a "max-unfair-steps"
  maxFairSteps := number? a "max-fair-steps"
  pattern := a.value? "pattern"
  signal := (a.value? "signal").bind FeedbackSignal.ofAlias?
  full := a.has "full"
  failOnMaxSteps := a.has "fail-on-max-steps"
  timeout := number? a "timeout"
  clients := clients a
  output := a.value? "output"

/-- The names of the commands. -/
def names : List String := ["demo", "replay", "resume", "pattern"]

/-- Reads words that ask for help on a command. -/
def readHelp : List String → Refusal
  | [] => .help
  | [name] => if name = "help" || names.contains name then .help else .misuse
  | _ => .misuse

/-- Reads a command and its arguments. -/
def read (name : String) (rest : List String) : Except Refusal Command := do
  match name with
  | "demo" => return .demo (demoOptions (← Arguments.parse demoUsage rest))
  | "replay" =>
    let a ← Arguments.parse replayUsage rest
    let [trace] := a.operands | throw .misuse
    return .replay trace (a.value? "config") (clients a)
  | "resume" =>
    let a ← Arguments.parse resumeUsage rest
    let some corpus := a.value? "corpus" | throw .misuse
    return .resume corpus (number? a "iterations") (clients a)
  | "pattern" =>
    let a ← Arguments.parse patternUsage rest
    let [source] := a.operands | throw .misuse
    return .pattern source (a.value? "events")
  | "help" => throw (readHelp rest)
  | "--help" => throw .help
  | "--version" => throw .version
  | _ =>
    match Arguments.Word.ofString name with
    | .short 'h' _ => throw .help
    | .short 'V' _ => throw .version
    | _ => throw .misuse

/-- Reads a command line. -/
def parse : List String → Except Refusal Command
  | [] => .error .misuse
  | name :: rest => read name rest

end Command

end Interleaving.Cli
