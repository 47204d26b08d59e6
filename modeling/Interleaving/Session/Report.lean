import Interleaving.Race
import Interleaving.Session.Bugs
import Interleaving.Strategy.Scheduler
import Interleaving.Text.Decimal
import Interleaving.Text.Lines

/-!
# Reports

What a session has found, and its text for human readers.
-/

namespace Interleaving

/-- Why a session ends. -/
inductive StopReason where
  | iterationsExhausted
  | bugFound
  | strategyExhausted
  | timedOut
  | stopped
deriving DecidableEq

/-- The reason in words. -/
def StopReason.text : StopReason → String
  | iterationsExhausted => "iteration budget exhausted"
  | bugFound => "bug found"
  | strategyExhausted => "strategy has nothing left to explore"
  | timedOut => "timed out"
  | stopped => "stopped"

/-- What is told of one run. -/
structure IterationReport where
  iteration : UInt64
  /-- The number of decisions. -/
  steps : UInt64
  /-- The number of pairs of receiver and event that no run before has shown. -/
  newCoverage : Nat
  patternMatched : Bool
  reachedMaxSteps : Bool
  bug : Option String
deriving DecidableEq

/-- What is told of a session. -/
structure Report where
  program : String
  strategy : String
  iterations : UInt64
  totalSteps : UInt64
  stopReason : StopReason
  bugs : List BugReport
  /-- The number of pairs of receiver and event over all runs. -/
  pairs : Nat
  /-- The number of runs behind the coverage. -/
  runs : UInt64
  racing : List RacingPair
  feedback : Option FeedbackStats
  /-- The number of runs of this session in which the pattern was matched. -/
  patternMatches : Nat
  /-- The runs of this session. -/
  rows : List IterationReport
  elapsedNanos : Nat
deriving DecidableEq

namespace Report

/-- A double line over the width of a report. -/
def doubleLine : String := "".pushn '═' 71

/-- The heading of a part of a report. -/
def heading (width : Nat) (title : String) : String := Text.padded width '─' s!"─── {title} "

/-- A value after its label. -/
def labelled (label value : String) : String := Text.padded 24 ' ' (label ++ ":") ++ value

/-- A value of a bug after its label. -/
def bugLabelled (label value : String) : String := "   " ++ Text.padded 14 ' ' (label ++ ":") ++ value

/-- How many lines of a trace are shown. -/
def tracePreview : Nat := 10

/-- The start of a trace. -/
def traceLines (trace : String) : List String :=
  match Text.lines trace with
  | [] => []
  | lines =>
    ["", "   Trace:"] ++ (lines.take tracePreview).map ("     " ++ ·) ++
      (if tracePreview < lines.length then
        [s!"     ... and {lines.length - tracePreview} more lines"]
      else [])

/-- The lines about a bug. -/
def bugLines (bug : BugReport) : List String :=
  [bugLabelled "Message" bug.message, bugLabelled "Iteration" (toString bug.iteration),
    bugLabelled "Steps" (toString bug.steps), bugLabelled "Strategy" bug.strategy] ++
  traceLines bug.trace

/-- The text about a bug. -/
def bugText (bug : BugReport) : String := Text.ofLines (bugLines bug)

/-- Nanoseconds as seconds with two decimal places. -/
def secondsText (nanos : Nat) : String :=
  Text.hundredths ((nanos / 1000000000).toFloat + (nanos % 1000000000).toFloat / 1000000000) ++ "s"

/-- The lines about the session as a whole. -/
def summaryLines (r : Report) : List String :=
  [labelled "Program" r.program, labelled "Strategy" r.strategy,
    labelled "Iterations" (toString r.iterations),
    labelled "Scheduling steps" (toString r.totalSteps),
    labelled "Stopped because" r.stopReason.text,
    labelled "Elapsed" (secondsText r.elapsedNanos),
    labelled "Bugs discovered" (toString r.bugs.length), ""]

/-- The lines about coverage. -/
def coverageLines (r : Report) : List String :=
  [heading 71 "Coverage Statistics", labelled "Total runs" (toString r.runs),
    labelled "Event pairs covered" (toString r.pairs)] ++
  (if 0 < r.patternMatches then
    [labelled "Pattern matched in" s!"{r.patternMatches} iterations"] else []) ++
  [""]

/-- The lines about a strategy that learns. -/
def feedbackLines (s : FeedbackStats) : List String :=
  [heading 71 "Feedback Statistics", labelled "Saved inputs" (toString s.totalSavedInputs),
    labelled "Current input index" (toString s.currentInputIndex),
    labelled "Pattern states covered" (toString s.coveredStates.size)] ++
  (if s.lastSavedScheduling.isEmpty then []
    else [labelled "Last saved scheduling" (", ".intercalate s.lastSavedScheduling)]) ++
  [""]

/-- The lines about sends that race. -/
def racingLines : List RacingPair → List String
  | [] => []
  | pairs =>
    [heading 71 "Racing Sends"] ++
      pairs.map (fun p => s!"  {p.first.text}  ||  {p.second.text}") ++ [""]

/-- The lines about all bugs. -/
def bugsLines : List BugReport → List String
  | [] => [heading 72 "No Bugs Found", "No property violations detected during exploration.", ""]
  | bugs =>
    heading 72 "Bugs Found" ::
      (bugs.mapIdx fun i bug => ["", s!"{i + 1}. Bug #{bug.bugId}"] ++ bugLines bug ++ [""]).flatten

/-- The text of a report. -/
def text (r : Report) : String :=
  Text.ofLines
    ([doubleLine, "  actorcheck Exploration Report", doubleLine, ""] ++ r.summaryLines ++
      r.coverageLines ++ r.feedback.elim [] feedbackLines ++ racingLines r.racing ++
      bugsLines r.bugs ++ [doubleLine])

end Report

end Interleaving
