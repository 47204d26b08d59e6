import Interleaving.Cli.Command
import Interleaving.Cli.Terminal
import Interleaving.Pattern.Dfa
import Interleaving.Pattern.Outline
import Interleaving.Program.RegisterRace
import Interleaving.Session.Explorer

/-!
# Running commands

What each command does on a terminal. A command ends with a code: `0` if all is well, `1` if bugs
are found or something goes wrong, and `2` if the arguments are wrong.
-/

namespace Interleaving.Cli

variable {m : Type → Type} [Monad m]

/-- What a command does. It may end early with a code. -/
abbrev Job (m : Type → Type) := ExceptT UInt32 m

/-- Prints lines. -/
def say (t : Terminal m) (lines : List String) : Job m Unit :=
  ExceptT.lift (t.print (Text.ofLines lines))

/-- Prints lines about the command's progress. -/
def note (t : Terminal m) (lines : List String) : Job m Unit :=
  ExceptT.lift (t.printError (Text.ofLines lines))

/-- Tells of an error and ends the command. -/
def stop {α : Type} (t : Terminal m) (lines : List String) : Job m α := do
  note t lines
  throw 1

/-- The value that there is if nothing has gone wrong. -/
def orStop {ε α : Type} (t : Terminal m) (lines : ε → List String) : Except ε α → Job m α
  | .ok a => return a
  | .error e => stop t (lines e)

/-- More operations than any run can have. -/
def fuel : Nat := 4611686018427387904

/-- The lines at the head of what is printed about a session. -/
def banner (title : String) : List String :=
  [Report.doubleLine, s!"  {title}", Report.doubleLine, ""]

/-- A value after its label. -/
def labelled (label value : String) : String :=
  "  " ++ Text.padded 16 ' ' (label ++ ":") ++ value

/-- Writes a report into a directory. -/
def writeReport (t : Terminal m) (text directory : String) : Job m Unit := do
  let path := s!"{directory}/report.txt"
  match ← t.files.write path text with
  | .ok () => note t [s!"Saved report to: {path}"]
  | .error e => note t [s!"Warning: failed to save report: {e.message}"]

/-- Runs a session and prints its report, which is also written into a directory if one is given. -/
def explore (t : Terminal m) (start : Except ConfigError (Explorer RegisterRace.State Strategy))
    (output : Option String) : Job m UInt32 := do
  let x ← orStop t (fun e => [s!"Error: {(ExploreError.config e).message}"]) start
  let (result, _) ← ExceptT.lift (x.explore t.files fuel t.elapsedNanos)
  let report ← orStop t (fun e => ["", s!"Exploration failed: {e.message}"]) result
  say t [report.text]
  if let some directory := output then
    writeReport t report.text directory
  return if report.bugs.isEmpty then 0 else 1

/-- Reads settings from a file. -/
def loadConfig (t : Terminal m) (path : String) : Job m Config := do
  orStop t (fun e => [s!"Error: failed to load config {path}: {e.message}"])
    (← ExceptT.lift (Config.load t.files path))

/-- The settings of a new session where nothing is said. -/
def demoConfig : Config := { Config.standard with iterations := 100 }

/-- The lines about the settings of a new session. -/
def settingsLines (c : Config) (clients : UInt64) : List String :=
  ["Configuration:", labelled "Program" s!"register-race ({clients} clients)",
    labelled "Strategy" c.strategy.text, labelled "Iterations" (toString c.iterations),
    labelled "Seed" (toString c.seed)] ++
  (if c.strategy.usesSwitchPoints then [labelled "Switch points" (toString c.strategyBound)]
    else []) ++
  [labelled "Step bound" (toString c.maxSteps)] ++
  c.pattern.toList.map (labelled "Pattern") ++
  c.outputDir.toList.map (labelled "Output") ++
  [""]

/-- Starts a session. -/
def demo (t : Terminal m) (o : DemoOptions) : Job m UInt32 := do
  let base ← match o.config with
    | some path => loadConfig t path
    | none => pure demoConfig
  let c := o.override base
  if o.clients = 0 then stop t ["Error: the demo needs at least one client"]
  if let some directory := c.outputDir then
    orStop t (fun e => [s!"Error: failed to create output directory: {e.message}"])
      (← t.files.createDirectories directory)
  note t (banner "actorcheck Exploration" ++ settingsLines c o.clients)
  explore t (Explorer.new c (RegisterRace.program o.clients.toNat)) c.outputDir

/-- Repeats a trace. -/
def replay (t : Terminal m) (path : String) (config : Option String) (clients : UInt64) :
    Job m UInt32 := do
  let text ← orStop t (fun e => [s!"Error: failed to read trace {path}: {e.message}"])
    (← t.files.read path)
  let trace ← orStop t (fun e => [s!"Error: {e.message}"]) (Trace.parse text)
  let c ← match config with
    | some path => loadConfig t path
    | none => pure Config.standard
  note t [s!"Replaying {trace.steps.size} steps from {path}", ""]
  explore t (Explorer.forReplay c (RegisterRace.program clients.toNat) trace) none

/-- The lines about a session that is gone on with. -/
def resumeLines (path : String) (c : Checkpoint) (iterations : Option UInt64) : List String :=
  banner "actorcheck Exploration (RESUME)" ++
  [s!"Checkpoint loaded from: {path}", "", "Previous progress:",
    labelled "Iterations" (toString c.iterationsCompleted),
    labelled "Steps" (toString c.totalSteps),
    labelled "Event pairs" (toString c.coverage.count),
    labelled "Bugs found" (toString c.bugs.length), "", "Configuration:",
    labelled "Strategy" c.config.strategy.text,
    labelled "Iterations" (toString (iterations.getD c.config.iterations)),
    labelled "Resume seed" (toString c.resumeSeed), ""]

/-- Goes on with a session. -/
def resume (t : Terminal m) (directory : String) (iterations : Option UInt64) (clients : UInt64) :
    Job m UInt32 := do
  if !(← t.files.isDirectory directory) then
    stop t [s!"Error: corpus directory not found: {directory}"]
  let path := s!"{directory}/checkpoint.json"
  let c ← orStop t (fun e => [s!"Error: failed to load checkpoint: {e.message}"])
    (← ExceptT.lift (Checkpoint.load t.files path))
  note t (resumeLines path c iterations)
  explore t (Explorer.ofCheckpoint c (RegisterRace.program clients.toNat) iterations) (some directory)

/-- The lines about a text that is no pattern, with a mark below the place of the error. -/
def patternErrorLines (source : String) (e : Pattern.ParseError) : List String :=
  s!"Error: {e.message}" ::
    match e.span? with
    | some span => [s!"  {source}", "  " ++ "".pushn ' ' span.start ++ "^"]
    | none => []

/-- What is said of an event and of all before it. -/
def eventLine (matcher : Matcher) (kind : String) : String :=
  let status :=
    if matcher.isAccepting then "match" else if matcher.isDead then "dead" else "-"
  "  " ++ Text.padded 16 ' ' kind ++ " " ++ status

/-- The lines about events that a matcher takes one after the other. `matched` tells whether those
before were matched. -/
def eventLines (matcher : Matcher) (matched : Bool) : List String → List String
  | [] =>
    let result := if matched then "matched" else "no match"
    ["", s!"Result: {result} ({matcher.visited.size} states visited)"]
  | kind :: rest =>
    let (_, matcher) := matcher.matchOne (.ofKind kind)
    eventLine matcher kind :: eventLines matcher matcher.isAccepting rest

/-- The event kinds in a list with commas. -/
def eventKinds (events : String) : List String :=
  ((events.splitOn ",").map Text.trim).filter (!·.isEmpty)

/-- Shows a pattern and matches events against it. -/
def pattern (t : Terminal m) (source : String) (events : Option String) : Job m UInt32 := do
  let p ← orStop t (patternErrorLines source) (Pattern.parse source)
  let nfa := Nfa.ofPattern p
  let dfa := Dfa.ofNfa nfa
  say t ([s!"Pattern: {p.text}", "", "AST:"] ++ p.outline ++
    ["", s!"NFA ({nfa.size} states):", nfa.text, s!"DFA ({dfa.size} states):", dfa.text])
  if let some events := events then
    say t (eventLines (.ofNfa nfa) false (eventKinds events))
  return 0

/-- The name of the command and its version. -/
def versionText : String := "actorcheck-explore 0.1.0"

/-- How the command is used. -/
def usageLines : List String :=
  ["Systematic concurrency testing for actor programs", "",
    "Usage: actorcheck-explore <COMMAND>", "", "Commands:",
    "  demo     Explore the register-race demo program",
    "  replay   Replay a schedule trace against the demo program",
    "  resume   Resume a saved session",
    "  pattern  Parse and compile an event pattern",
    "  help     Print this message or the help of the given subcommand(s)", "", "Options:",
    "  -h, --help     Print help", "  -V, --version  Print version"]

/-- Runs a command. -/
def perform (t : Terminal m) : Command → Job m UInt32
  | .demo options => demo t options
  | .replay trace config clients => replay t trace config clients
  | .resume corpus iterations clients => resume t corpus iterations clients
  | .pattern source events => pattern t source events

/-- Tells why there is no command to run. -/
def refuse (t : Terminal m) : Refusal → Job m UInt32
  | .help => do
    say t usageLines
    return 0
  | .version => do
    say t [versionText]
    return 0
  | .misuse => do
    note t usageLines
    return 2

/-- Runs the command that the arguments ask for. The answer is its code. -/
def run (t : Terminal m) (args : List String) : m UInt32 := do
  let job : Job m UInt32 :=
    match Command.parse args with
    | .ok command => perform t command
    | .error refusal => refuse t refusal
  match ← job.run with
  | .ok code | .error code => return code

end Interleaving.Cli
