import Interleaving.Operation
import Interleaving.Text.Lines
import Interleaving.Text.Quoted

/-!
# Traces

The decisions of a run, from which it can be run again, and their text: header lines first, then
one decision a line. `(3)` runs operation 3, `True` and `False` answer a request for a truth value,
and a number answers a request for a number.
-/

namespace Interleaving

/-- One decision of a run. -/
inductive TraceStep where
  /-- An operation is run. -/
  | schedule (id : OperationId)
  /-- A request for a truth value is answered. -/
  | boolean (b : Bool)
  /-- A request for a number is answered. -/
  | integer (n : UInt64)
deriving DecidableEq

/-- The text of a decision. -/
def TraceStep.text : TraceStep → String
  | schedule id => s!"({id})"
  | boolean true => "True"
  | boolean false => "False"
  | integer n => toString n

/-- The decisions of a run and what is known of its kind. -/
structure Trace where
  steps : Array TraceStep
  fairScheduling : Bool
  livenessThreshold : Option UInt64
  testMethod : Option String
deriving DecidableEq

/-- A line of a text that is no line of a trace; lines are counted from 1. -/
structure TraceError where
  line : Nat
  text : String
deriving DecidableEq

/-- The text of the error. -/
def TraceError.message (e : TraceError) : String :=
  s!"malformed trace line {e.line}: " ++ Text.quoted e.text

namespace Trace

/-- The trace without decisions and headers. -/
def empty : Trace := ⟨#[], false, none, none⟩

instance : Inhabited Trace := ⟨empty⟩

/-- Adds a decision. -/
def push (t : Trace) (step : TraceStep) : Trace := { t with steps := t.steps.push step }

/-- Drops the decisions and keeps the headers. -/
def clear (t : Trace) : Trace := { t with steps := #[] }

/-- The header of a trace of a fair scheduler. -/
def fairHeader : String := "--fair-scheduling"

/-- The header of a liveness threshold, up to its value. -/
def thresholdHeader : String := "--liveness-temperature-threshold:"

/-- The header of a test's name, up to the name. -/
def methodHeader : String := "--test-method:"

/-- The lines of a trace. -/
def lines (t : Trace) : List String :=
  (if t.fairScheduling then [fairHeader] else []) ++
  (match t.livenessThreshold with
    | some n => [s!"{thresholdHeader}{n}"]
    | none => []) ++
  (match t.testMethod with
    | some name => [methodHeader ++ name]
    | none => []) ++
  t.steps.toList.map (·.text)

/-- The text of a trace. -/
def text (t : Trace) : String := String.join (t.lines.map (· ++ "\n"))

/-- What follows `start` in a text that begins with it. -/
def after? : (start text : List Char) → Option (List Char)
  | [], cs => some cs
  | a :: as, c :: cs => if a = c then after? as cs else none
  | _ :: _, [] => none

/-- The text after a header. -/
def afterHeader? (header line : String) : Option String :=
  (after? header.toList line.toList).map .ofList

/-- Takes over a header line. -/
def readHeader? (t : Trace) (line : String) : Option Trace :=
  if line = fairHeader then some { t with fairScheduling := true }
  else
    match afterHeader? thresholdHeader line with
    | some value => (Text.readUInt64? value).map fun n => { t with livenessThreshold := some n }
    | none => (afterHeader? methodHeader line).map fun name => { t with testMethod := some name }

/-- The text between parentheses, if a line has them at both ends. -/
def parenthesized? (line : String) : Option String :=
  match line.toList with
  | '(' :: rest =>
    match rest.reverse with
    | ')' :: inner => some (.ofList inner.reverse)
    | _ => none
  | _ => none

/-- The decision that a line states. -/
def readStep? (line : String) : Option TraceStep :=
  if line = "True" then some (.boolean true)
  else if line = "False" then some (.boolean false)
  else
    match parenthesized? line with
    | some id => (Text.readUInt64? (Text.trim id)).map .schedule
    | none => (Text.readUInt64? line).map .integer

/-- Takes over a line. Blanks around it do not matter, empty lines say nothing, and headers are
only allowed before the first decision. -/
def readLine? (t : Trace) (raw : String) : Option Trace :=
  let line := Text.trim raw
  if line.isEmpty then some t
  else if (afterHeader? "--" line).isSome then
    if t.steps.isEmpty then t.readHeader? line else none
  else (readStep? line).map t.push

/-- Takes over lines, the first of which has the number `number`. -/
def readLines (number : Nat) (t : Trace) : List String → Except TraceError Trace
  | [] => .ok t
  | line :: rest =>
    match t.readLine? line with
    | some t => readLines (number + 1) t rest
    | none => .error ⟨number, line⟩

/-- Reads a trace from its text. -/
def parse (s : String) : Except TraceError Trace := readLines 1 empty (Text.lines s)

end Trace

end Interleaving
