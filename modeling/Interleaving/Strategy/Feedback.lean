import Interleaving.Schedule.Run
import Interleaving.Strategy.Scheduler

/-!
# Search by feedback

When a run shows something new, the generator behind it is saved to a corpus, and later runs are
derived from saved generators by mutation. An entry of the corpus that has been mutated often enough
without success gives way to the next one.
-/

namespace Interleaving

/-- How the next run is derived from a saved one. -/
inductive FeedbackMode where
  /-- Inputs and schedule are mutated together. -/
  | oneStage
  /-- One half is mutated and the other is kept. -/
  | twoStage
deriving DecidableEq

/-- What counts as something new. -/
inductive FeedbackSignal where
  /-- New pairs of receiver and event, new states of the pattern, or its first match. -/
  | coverage
  /-- A new fingerprint of what each actor did. -/
  | timeline
  /-- More operations to choose from at some step than in any earlier run. -/
  | prefixBranching
deriving DecidableEq

/-- The name of a signal. -/
def FeedbackSignal.text : FeedbackSignal → String
  | coverage => "coverage"
  | timeline => "timeline"
  | prefixBranching => "prefix-branching"

/-- All signals. -/
def FeedbackSignal.all : List FeedbackSignal := [coverage, timeline, prefixBranching]

/-- The signal of a name. -/
def FeedbackSignal.ofText? (name : String) : Option FeedbackSignal := all.find? (·.text == name)

/-- The signal of a name or of another name for it. -/
def FeedbackSignal.ofAlias? (name : String) : Option FeedbackSignal :=
  if name = "unbiased" then some prefixBranching else ofText? name

/-- The message for a name that no signal has. -/
def FeedbackSignal.unknownMessage (name : String) : String := s!"unknown feedback signal '{name}'"

/-- All that has been seen, against which a run is compared. -/
structure Novelty where
  coveredEvents : SortedSet String
  coveredStates : SortedSet Nat
  patternMatched : Bool
  timelines : SortedSet UInt64
  /-- The largest number of operations to choose from at each step. -/
  maxBranching : List Nat

namespace Novelty

/-- Nothing has been seen. -/
def empty : Novelty := ⟨.empty, .empty, false, .empty, []⟩

/-- The larger of two numbers at each step, and whether the second list rises above the first or
goes on beyond it. -/
def raise : (best counts : List Nat) → Bool × List Nat
  | best, [] => (false, best)
  | [], counts => (true, counts)
  | b :: best, c :: counts =>
    let (novel, best) := raise best counts
    (novel || b < c, max b c :: best)

/-- Whether a run shows something new, and all that has been seen once it is counted in. -/
def note (n : Novelty) (signal : FeedbackSignal) (branching : List Nat) (summary : RunSummary) :
    Bool × Novelty :=
  match signal with
  | .coverage =>
    let coveredEvents := n.coveredEvents.union summary.eventCoverage
    let coveredStates := n.coveredStates.union summary.visitedStates
    (n.coveredEvents.size < coveredEvents.size || n.coveredStates.size < coveredStates.size ||
        (summary.patternMatched && !n.patternMatched),
      { n with
        coveredEvents, coveredStates
        patternMatched := n.patternMatched || summary.patternMatched })
  | .timeline =>
    match summary.timelineHash with
    | some hash => (!n.timelines.contains hash, { n with timelines := n.timelines.insert hash })
    | none => (false, n)
  | .prefixBranching =>
    let (novel, maxBranching) := raise n.maxBranching branching
    (novel, { n with maxBranching })

end Novelty

/-- A strategy that mutates the runs that showed something new. -/
structure FeedbackStrategy where
  current : RunGenerator
  corpus : Array RunGenerator
  rng : Rng
  mode : FeedbackMode
  signal : FeedbackSignal
  /-- How many mutations of an entry may fail in a row. -/
  maxMutations : Nat
  maxSteps : Nat
  fair : Bool
  scheduledSteps : Nat
  /-- The length of the longest run so far. -/
  scheduleLength : Nat
  currentInputIndex : Nat
  /-- Mutations of the present entry since the last save. -/
  mutationsWithoutSave : Nat
  /-- Runs since the last save, mutation of inputs or change of entry. -/
  staleIterations : Nat
  novelty : Novelty
  /-- The number of operations to choose from at each step of this run. -/
  branching : Array Nat
  lastSavedScheduling : List String

namespace FeedbackStrategy

/-- How many mutations of an entry may fail in a row, if nothing else is said. -/
def defaultMaxMutations : Nat := 50

/-- After how many runs without success inputs are mutated once instead of the schedule. -/
def twoStageThreshold : Nat := 5

/-- A strategy before its first run. A bound of `0` steps is no bound. -/
def ofKind (kind : ScheduleKind) (maxSteps : Nat) (fair : Bool) (seed : UInt64)
    (mode : FeedbackMode) (signal : FeedbackSignal) : FeedbackStrategy :=
  let (schedule, rng) := kind.generator (.ofSeed seed)
  let (input, rng) := InputGenerator.ofRng rng
  { current := (RunGenerator.mk input schedule).startIteration 0
    corpus := #[]
    rng, mode, signal
    maxMutations := defaultMaxMutations
    maxSteps, fair
    scheduledSteps := 0
    scheduleLength := 0
    currentInputIndex := 0
    mutationsWithoutSave := 0
    staleIterations := 0
    novelty := .empty
    branching := #[]
    lastSavedScheduling := [] }

/-- Sets how many mutations of an entry may fail in a row, at least one. -/
def withMaxMutations (s : FeedbackStrategy) (maxMutations : Nat) : FeedbackStrategy :=
  { s with maxMutations := max maxMutations 1 }

/-- Goes on to the next entry of the corpus if the present one has been mutated often enough. -/
def rotate (s : FeedbackStrategy) : FeedbackStrategy :=
  if s.maxMutations ≤ s.mutationsWithoutSave then
    { s with
      currentInputIndex := (s.currentInputIndex + 1) % s.corpus.size
      mutationsWithoutSave := 0
      staleIterations := 0 }
  else s

/-- Derives a generator from an entry of the corpus. -/
def derive (s : FeedbackStrategy) (base : RunGenerator) : FeedbackStrategy :=
  match s.mode with
  | .oneStage =>
    let (current, rng) := base.mutateBoth s.rng
    { s with current, rng }
  | .twoStage =>
    if twoStageThreshold ≤ s.staleIterations then
      let (current, rng) := base.mutateInput s.rng
      { s with current, rng, staleIterations := 0 }
    else
      let (current, rng) := base.mutateSchedule s.rng
      { s with current, rng }

/-- Derives the generator of the next run: from the present one as long as nothing is saved, and
then from the corpus. -/
def nextGenerator (s : FeedbackStrategy) : FeedbackStrategy :=
  if s.corpus.isEmpty then
    let (current, rng) := s.current.mutateBoth s.rng
    { s with current, rng }
  else
    let s := s.rotate
    match s.corpus[min s.currentInputIndex (s.corpus.size - 1)]? with
    | some base => s.derive base
    | none => s

instance : Scheduler FeedbackStrategy where
  nextOperation s ops :=
    match Operation.enabledAmong ops with
    | [] => (.ok none, s)
    | enabled =>
      let (id, schedule) := s.current.schedule.next enabled
      (id.map some,
        { s with
          current := { s.current with schedule }
          scheduledSteps := s.scheduledSteps + 1
          branching := s.branching.push enabled.length })
  nextBool s maxValue :=
    let (b, input) := s.current.input.nextBool maxValue
    (.ok b,
      { s with current := { s.current with input }, scheduledSteps := s.scheduledSteps + 1 })
  nextInt s maxValue :=
    let (n, input) := s.current.input.nextInt maxValue
    (.ok n,
      { s with current := { s.current with input }, scheduledSteps := s.scheduledSteps + 1 })
  prepare s :=
    let scheduleLength := max s.scheduleLength s.scheduledSteps
    let s := s.nextGenerator
    (true,
      { s with
        current := s.current.startIteration scheduleLength
        scheduleLength, scheduledSteps := 0, branching := #[] })
  scheduledSteps s := s.scheduledSteps
  reachedMaxSteps s := reachesBound s.maxSteps s.scheduledSteps
  isFair s := s.fair
  description s :=
    let mode := match s.mode with
      | .oneStage => "feedback"
      | .twoStage => "2stagefeedback"
    s!"{mode}[{s.current.schedule.description}, {s.signal.text}]"
  observe s summary :=
    let (novel, novelty) := s.novelty.note s.signal s.branching.toList summary
    if novel then
      { s with
        novelty
        corpus := s.corpus.push s.current
        lastSavedScheduling := summary.matchedEvents
        mutationsWithoutSave := 0
        staleIterations := 0 }
    else
      { s with
        novelty
        mutationsWithoutSave := s.mutationsWithoutSave + 1
        staleIterations := s.staleIterations + 1 }
  stats s :=
    some ⟨s.corpus.size, s.currentInputIndex, s.novelty.coveredStates, s.lastSavedScheduling⟩

end FeedbackStrategy

end Interleaving
