import Interleaving.Proofs.Schedule.Copy
import Interleaving.Proofs.Strategy.Novelty

/-!
# Two stages

A search by feedback in two stages derives each run from a saved one: it mutates the inputs or the
schedule and holds the other half. The half that is held answers as it did in the saved run, as long as
the requests for it are the same (`FeedbackStrategy.answers_of_held_half`). For a schedule with change
points this is so only if no run since has been longer than the longest run up to the saved one, which
does not count: the change points are drawn anew for the longest run
(`FeedbackStrategy.other_answers_of_held_schedule`).

What a half answers in a run depends on its own part of the generator (`Half.IsAnsweredBy`), so the two
runs are compared by one function that draws from that part, on a tape of the saved run.
-/

namespace Interleaving

/-- The two halves of a generator, which answer the requests of a program between them. -/
inductive Half where
  | inputs
  | schedule
deriving DecidableEq

namespace Request

/-- The half of a generator that answers a request. -/
def half : Request → Half
  | operation _ => .schedule
  | bool _ => .inputs
  | int _ => .inputs

/-- The answer of a strategy, as it goes into a trace. -/
def answer {S : Type} [Scheduler S] (s : S) : Request → Except StrategyError (Option TraceStep)
  | operation ops => (Scheduler.nextOperation s ops).1.map (Option.map .schedule)
  | bool maxValue => (Scheduler.nextBool s maxValue).1.map fun b => some (.boolean b)
  | int maxValue => (Scheduler.nextInt s maxValue).1.map fun n => some (.integer n)

end Request

/-- Whatever can be done with a strategy. -/
inductive Call where
  /-- The program asks for something. -/
  | request (q : Request)
  /-- The strategy learns from a run. -/
  | observe (summary : RunSummary)
  /-- The next run is to begin. -/
  | prepare

namespace Call

variable {S : Type} [Scheduler S]

/-- The strategy after a call. -/
def carryOut (s : S) : Call → S
  | request q => q.serve s
  | observe summary => Scheduler.observe s summary
  | prepare => (Scheduler.prepare s).2

/-- The strategy after some calls. -/
def after (s : S) (calls : List Call) : S := calls.foldl carryOut s

/-- The request that a call makes of a half, if it makes one. -/
def request? (half : Half) : Call → Option Request
  | request q => if q.half = half then some q else none
  | observe _ => none
  | prepare => none

/-- The requests that calls make of a half. -/
def requests (half : Half) (calls : List Call) : List Request := calls.filterMap (request? half)

/-- What a half of a strategy answers in the course of some calls. -/
def answers (half : Half) : S → List Call → List (Except StrategyError (Option TraceStep))
  | _, [] => []
  | s, c :: rest =>
    ((c.request? half).map (Request.answer s)).toList ++ answers half (c.carryOut s) rest

end Call

open Call

/-- A part of a strategy is all that a half draws its answers from. -/
structure Half.IsAnsweredBy {S σ : Type} [Scheduler S] (half : Half) (part : S → σ)
    (f : Request → σ → Except StrategyError (Option TraceStep) × σ) : Prop where
  own (s : S) {q : Request} : q.half = half → f q (part s) = (q.answer s, part (q.serve s))
  other (s : S) {q : Request} : q.half ≠ half → part (q.serve s) = part s
  observe (s : S) (summary : RunSummary) : part (Scheduler.observe s summary) = part s

/-- In the course of a run, a half answers the requests for it in turn. -/
lemma Half.IsAnsweredBy.inTurn {S σ : Type} [Scheduler S] {half : Half} {part : S → σ}
    {f : Request → σ → Except StrategyError (Option TraceStep) × σ} (A : half.IsAnsweredBy part f)
    {run : List Call} (one : .prepare ∉ run) (s : S) :
    Recorder.inTurn f (requests half run) (part s) = (answers half s run, part (after s run)) := by
  induction run generalizing s with
  | nil => rfl
  | cons c run ih =>
    obtain ⟨begun, one⟩ := not_or.mp (List.mem_cons.not.mp one)
    have ih := ih one (c.carryOut s)
    cases c with
    | request q =>
      by_cases own : q.half = half
      · have asked : request? half (.request q) = some q := if_pos own
        rw [requests, List.filterMap_cons_some asked, answers, asked, Recorder.inTurn, A.own s own]
        exact congrArg (Prod.map (q.answer s :: ·) id) ih
      · have skipped : request? half (.request q) = none := if_neg own
        rw [requests, List.filterMap_cons_none skipped, answers, skipped, ← A.other s own]
        exact ih
    | observe summary =>
      rw [← A.observe s summary]
      exact ih
    | prepare => exact absurd rfl begun

/-- The answer to a request for a value. -/
def ChoiceStream.answer :
    Request → ChoiceStream → Except StrategyError (Option TraceStep) × ChoiceStream
  | .operation _, s => (.ok none, s)
  | .bool maxValue, s =>
    (.ok (some (.boolean ((s.nextInt (max maxValue 1)).1 == 0))), (s.nextInt (max maxValue 1)).2)
  | .int maxValue, s => (.ok (some (.integer (s.nextInt maxValue).1)), (s.nextInt maxValue).2)

lemma ChoiceStream.repeatsAt_answer {t : Tape} (q : Request) (s : ChoiceStream) :
    (recorder t).RepeatsAt (answer q) s := by
  cases q with
  | operation ops => exact .pure _
  | bool maxValue =>
    exact (s.repeatsAt_nextInt _).map fun n => Except.ok (some (TraceStep.boolean (n == 0)))
  | int maxValue =>
    exact (s.repeatsAt_nextInt _).map fun n => Except.ok (some (TraceStep.integer n))

/-- The answer to a request for an operation. -/
def ScheduleGenerator.answer :
    Request → ScheduleGenerator → Except StrategyError (Option TraceStep) × ScheduleGenerator
  | .operation ops, g =>
    match Operation.enabledAmong ops with
    | [] => (.ok none, g)
    | enabled => ((g.next enabled).1.map fun id => some (.schedule id), (g.next enabled).2)
  | .bool _, g => (.ok none, g)
  | .int _, g => (.ok none, g)

lemma ScheduleGenerator.repeatsAt_answer {t u : Tape} {kept : ScheduleKind × Nat} (q : Request)
    (g : ScheduleGenerator) : (recorder t u kept).RepeatsAt (answer q) g := by
  cases q with
  | operation ops =>
    cases e : Operation.enabledAmong ops with
    | nil => exact (Recorder.RepeatsAt.pure (.ok none)).congr (by rw [answer, e]) (by rw [answer, e])
    | cons first others =>
      exact ((g.repeatsAt_next (first :: others)).map (·.map fun id => some (.schedule id))).congr
        (by rw [answer, e]) (by rw [answer, e])
  | bool maxValue => exact .pure _
  | int maxValue => exact .pure _

namespace PctSchedule

/-- Where a schedule has one change to make, and two operations to begin with, the first of them is run,
unless the change comes at once. -/
lemma fst_next_of_two {g : PctSchedule} (settings : g.settings = (.pct 1 .shuffled, 0))
    {length : Nat} (short : length ≤ 1) {a b : Operation} (ne : a.id ≠ b.id) :
    ((g.startIteration length).next [a, b]).1 = .ok (if length = 0 then a.id else b.id) := by
  obtain ⟨kind, unknown⟩ := Prod.mk.inj settings
  obtain ⟨points, sampling⟩ := ScheduleKind.pct.inj kind
  have never : (SortedSet.ofList ([] : List Nat)).contains 0 = false := by decide
  have at_once : (SortedSet.ofList [0]).contains 0 = true := by decide
  have begun : ∃ priorityChoices switchChoices, (g.startIteration length) =
      ⟨priorityChoices, switchChoices, 1, .shuffled, length, [],
        .fixed (SortedSet.ofList (List.range length)), 0, 0⟩ := by
    refine ⟨g.priorityChoices.rewind, g.switchChoices.rewind, ?_⟩
    rw [startIteration, unknown, sampleChangePoints]
    simp only [sampling, points]
    interval_cases length <;> rfl
  obtain ⟨priorityChoices, switchChoices, begun⟩ := begun
  rw [begun]
  interval_cases length
  · simp [next, discover, change, highest?, ChangePoints.contains, ChoiceStream.nextIndex,
      ne.symm, never]
  · simp [next, discover, change, highest?, ChangePoints.contains, ChoiceStream.nextIndex,
      demote, Nat.mod_one, ne.symm, at_once]

end PctSchedule

namespace FeedbackStrategy

variable {s : FeedbackStrategy}

lemma isAnsweredBy_inputs :
    Half.inputs.IsAnsweredBy (fun s : FeedbackStrategy => s.current.input.ints)
      ChoiceStream.answer where
  own s q own := by
    cases q with
    | operation ops => cases own
    | bool maxValue => rfl
    | int maxValue => rfl
  other s q other := by
    cases q with
    | operation ops =>
      simp only [Request.serve, Scheduler.nextOperation]
      split <;> rfl
    | bool maxValue => cases other rfl
    | int maxValue => cases other rfl
  observe s summary := by
    simp only [Scheduler.observe]
    split <;> rfl

lemma isAnsweredBy_schedule :
    Half.schedule.IsAnsweredBy (fun s : FeedbackStrategy => s.current.schedule)
      ScheduleGenerator.answer where
  own s q own := by
    cases q with
    | operation ops =>
      simp only [ScheduleGenerator.answer, Request.answer, Request.serve, Scheduler.nextOperation]
      cases Operation.enabledAmong ops with
      | nil => rfl
      | cons first others =>
        have composed : ∀ answer : Except StrategyError OperationId,
            answer.map (fun id => some (TraceStep.schedule id)) =
              (answer.map some).map (Option.map .schedule) := by
          intro answer
          cases answer <;> rfl
        exact Prod.ext (composed _) rfl
    | bool maxValue => cases own
    | int maxValue => cases own
  other s q other := by
    cases q with
    | operation ops => cases other rfl
    | bool maxValue => rfl
    | int maxValue => rfl
  observe s summary := by
    simp only [Scheduler.observe]
    split <;> rfl

/-- The entry of the corpus that the next run is derived from. -/
def source (s : FeedbackStrategy) : Nat := min s.rotate.currentInputIndex (s.corpus.size - 1)

/-- The half that the next run has in common with the entry it is derived from, in two stages. -/
def held (s : FeedbackStrategy) : Half :=
  if twoStageThreshold ≤ s.rotate.staleIterations then .schedule else .inputs

lemma rotate_eq :
    s.rotate.current = s.current ∧ s.rotate.corpus = s.corpus ∧ s.rotate.mode = s.mode ∧
      s.rotate.rng = s.rng := by
  rw [rotate]
  split <;> exact ⟨rfl, rfl, rfl, rfl⟩

/-- The next generator is derived from the entry. -/
lemma nextGenerator_eq {base : RunGenerator} (entry : s.corpus[s.source]? = some base) :
    s.nextGenerator = s.rotate.derive base := by
  have saved : s.corpus.isEmpty = false := by
    have lt := (Array.getElem?_eq_some_iff.mp entry).1
    rw [Array.isEmpty_eq_false_iff]
    rintro empty
    rw [empty] at lt
    exact Nat.not_lt_zero _ lt
  have entry' : s.rotate.corpus[min s.rotate.currentInputIndex (s.rotate.corpus.size - 1)]? =
      some base := by
    rw [rotate_eq.2.1]
    exact entry
  simp only [nextGenerator, saved, Bool.false_eq_true, if_false, entry']

/-- In two stages, the next generator is made from the entry by mutating the half that is not held. -/
lemma current_prepare (mode : s.mode = .twoStage) {base : RunGenerator}
    (entry : s.corpus[s.source]? = some base) :
    (Scheduler.prepare s).2.current =
      (match s.held with
        | .schedule => (base.mutateInput s.rng).1
        | .inputs => (base.mutateSchedule s.rng).1).startIteration
          (Scheduler.prepare s).2.scheduleLength := by
  obtain ⟨-, -, mode', rng⟩ := rotate_eq (s := s)
  simp only [Scheduler.prepare, nextGenerator_eq entry, derive, mode', mode, held]
  by_cases stale : twoStageThreshold ≤ s.rotate.staleIterations
  · simp only [if_pos stale, rng]
  · simp only [if_neg stale, rng]

/-- The next run has a copy of the inputs, if they are held. -/
lemma ints_prepare (mode : s.mode = .twoStage) {base : RunGenerator}
    (entry : s.corpus[s.source]? = some base) (held : s.held = .inputs) :
    (after s [.prepare]).current.input.ints = (base.input.ints.copy s.rng).1.rewind := by
  have current := current_prepare mode entry
  rw [held] at current
  exact congrArg (·.input.ints) current

/-- The next run has a copy of the schedule, if it is held, started anew for the longest run. -/
lemma schedule_prepare (mode : s.mode = .twoStage) {base : RunGenerator}
    (entry : s.corpus[s.source]? = some base) (held : s.held = .schedule) :
    ∃ rng, (after s [.prepare]).current.schedule =
      (base.schedule.copied rng).1.startIteration (after s [.prepare]).scheduleLength := by
  have current := current_prepare mode entry
  rw [held] at current
  exact ⟨_, congrArg (·.schedule) current⟩

/-- A strategy may come to be another: it is of the same mode and has kept what it has saved. -/
structure Precedes (s s' : FeedbackStrategy) : Prop where
  mode : s'.mode = s.mode
  corpus : s.corpus.toList <+: s'.corpus.toList

lemma precedes_carryOut (c : Call) : s.Precedes (c.carryOut s) := by
  cases c with
  | request q =>
    refine ⟨?_, (congrArg Array.toList (serve_eq q).1).symm ▸ List.prefix_refl _⟩
    cases q with
    | operation ops =>
      simp only [carryOut, Request.serve, Scheduler.nextOperation]
      split <;> rfl
    | bool maxValue => rfl
    | int maxValue => rfl
  | observe summary =>
    simp only [carryOut, Scheduler.observe]
    split
    · exact ⟨rfl, Array.toList_push ▸ List.prefix_append _ _⟩
    · exact ⟨rfl, List.prefix_refl _⟩
  | prepare =>
    obtain ⟨_, _, _, _, _, eq⟩ := exists_nextGenerator_eq (s := s)
    simp only [carryOut, Scheduler.prepare, eq]
    exact ⟨rfl, List.prefix_refl _⟩

lemma precedes_after (calls : List Call) : s.Precedes (after s calls) := by
  induction calls generalizing s with
  | nil => exact ⟨rfl, List.prefix_refl _⟩
  | cons c calls ih =>
    obtain ⟨mode, corpus⟩ := precedes_carryOut (s := s) c
    obtain ⟨mode', corpus'⟩ := ih (s := c.carryOut s)
    exact ⟨mode'.trans mode, corpus.trans corpus'⟩

/-- A run that makes the corpus grow is saved as its last entry, and all counts begin anew. -/
lemma exists_observe_eq {summary : RunSummary}
    (grown : s.corpus.size < (Scheduler.observe s summary).corpus.size) :
    ∃ novelty, Scheduler.observe s summary =
      { s with
        novelty := novelty
        corpus := s.corpus.push s.current
        lastSavedScheduling := summary.matchedEvents
        mutationsWithoutSave := 0
        staleIterations := 0 } := by
  simp only [Scheduler.observe] at grown ⊢
  split at grown
  · next novel => exact ⟨_, if_pos novel⟩
  · exact absurd grown (Nat.lt_irrefl _)

lemma corpus_observe {summary : RunSummary}
    (grown : s.corpus.size < (Scheduler.observe s summary).corpus.size) :
    (Scheduler.observe s summary).corpus = s.corpus.push s.current := by
  obtain ⟨novelty, eq⟩ := exists_observe_eq grown
  rw [eq]

/-- No generator of the strategy has change points. -/
structure IsRandom (s : FeedbackStrategy) : Prop where
  current : s.current.schedule.isRandom = true
  corpus : ∀ g ∈ s.corpus, g.schedule.isRandom = true

lemma isRandom_derive (base : RunGenerator) :
    (s.derive base).current.schedule.isRandom = base.schedule.isRandom := by
  rw [derive]
  split
  · exact ScheduleGenerator.isRandom_mutated _ _
  · split
    · exact ScheduleGenerator.isRandom_copied _ _
    · exact ScheduleGenerator.isRandom_mutated _ _

lemma IsRandom.nextGenerator (h : s.IsRandom) :
    s.nextGenerator.current.schedule.isRandom = true := by
  obtain ⟨current, corpus, -, -⟩ := rotate_eq (s := s)
  rw [FeedbackStrategy.nextGenerator]
  split
  · exact (ScheduleGenerator.isRandom_mutated _ _).trans h.current
  · dsimp only
    split
    · next base entry =>
      rw [corpus] at entry
      exact (isRandom_derive base).trans (h.corpus base (Array.mem_of_getElem? entry))
    · exact current ▸ h.current

lemma IsRandom.carryOut (h : s.IsRandom) (c : Call) : (c.carryOut s).IsRandom := by
  cases c with
  | request q =>
    refine ⟨?_, (serve_eq q).1.symm ▸ h.corpus⟩
    cases q with
    | operation ops =>
      simp only [Call.carryOut, Request.serve, Scheduler.nextOperation]
      split
      · exact h.current
      · exact (ScheduleGenerator.isRandom_next _ _).trans h.current
    | bool maxValue => exact h.current
    | int maxValue => exact h.current
  | observe summary =>
    simp only [Call.carryOut, Scheduler.observe]
    split
    · refine ⟨h.current, fun g mem => ?_⟩
      obtain mem | rfl := Array.mem_push.mp mem
      · exact h.corpus g mem
      · exact h.current
    · exact ⟨h.current, h.corpus⟩
  | prepare =>
    exact ⟨(ScheduleGenerator.isRandom_startIteration _ _).trans h.nextGenerator,
      prepare_eq.1.symm ▸ h.corpus⟩

lemma IsRandom.after (h : s.IsRandom) (calls : List Call) : (Call.after s calls).IsRandom := by
  induction calls generalizing s with
  | nil => exact h
  | cons c calls ih => exact ih (h.carryOut c)

/-- A run begins with its generator at its start. -/
lemma exists_current_eq_startIteration (kind : ScheduleKind) (maxSteps : Nat) (fair : Bool)
    (seed : UInt64) (mode : FeedbackMode) (signal : FeedbackSignal) (maxMutations : Nat)
    {earlier : List Call} (begins : earlier = [] ∨ ∃ calls, earlier = calls ++ [.prepare]) :
    let s := after ((ofKind kind maxSteps fair seed mode signal).withMaxMutations maxMutations) earlier
    ∃ g : RunGenerator, s.current = g.startIteration s.scheduleLength := by
  obtain rfl | ⟨calls, rfl⟩ := begins
  · exact ⟨_, rfl⟩
  · simp only [after, List.foldl_append, List.foldl_cons, List.foldl_nil, Call.carryOut]
    exact ⟨_, rfl⟩

lemma isRandom_ofKind (maxSteps : Nat) (fair : Bool) (seed : UInt64) (mode : FeedbackMode)
    (signal : FeedbackSignal) (maxMutations : Nat) :
    ((ofKind .random maxSteps fair seed mode signal).withMaxMutations maxMutations).IsRandom :=
  ⟨rfl, fun _ mem => absurd mem (Array.not_mem_empty _)⟩

/-- With a copy of the inputs of a run, the requests for values have the same answers. -/
lemma answers_of_copied_inputs {before next : FeedbackStrategy} {run calls : List Call}
    (one : .prepare ∉ run) (one' : .prepare ∉ calls) (fresh : before.current.input.ints.cursor = 0)
    (same : requests .inputs calls <+: requests .inputs run) {rng : Rng}
    (copied : next.current.input.ints =
      ((after before run).current.input.ints.copy rng).1.rewind) :
    answers .inputs next calls <+: answers .inputs before run := by
  have repeats := ChoiceStream.inTurn_copy (fun _ => ChoiceStream.repeatsAt_answer) fresh same rng
  rw [isAnsweredBy_inputs.inTurn one before] at repeats
  rw [← copied, isAnsweredBy_inputs.inTurn one' next] at repeats
  exact repeats

/-- With a copy of the schedule of a run, the requests for operations have the same answers, if there are
no change points or they are drawn for a run of the same length. -/
lemma answers_of_copied_schedule {before next : FeedbackStrategy} {run calls : List Call}
    (one : .prepare ∉ run) (one' : .prepare ∉ calls) {g : ScheduleGenerator} {length longest : Nat}
    (begun : before.current.schedule = g.startIteration length)
    (le : g.isRandom = true ∨ longest ≤ length)
    (same : requests .schedule calls <+: requests .schedule run) {rng : Rng}
    (copied : next.current.schedule =
      ((after before run).current.schedule.copied rng).1.startIteration longest) :
    answers .schedule next calls <+: answers .schedule before run := by
  have repeats := ScheduleGenerator.inTurn_copied
    (fun _ _ _ => ScheduleGenerator.repeatsAt_answer) le same rng
  rw [← begun, isAnsweredBy_schedule.inTurn one before] at repeats
  rw [← copied, isAnsweredBy_schedule.inTurn one' next] at repeats
  exact repeats

/-- Getting ready changes nothing but the generator and the counts of the run, unless an entry of the
corpus has been mutated often enough or the inputs are to be mutated. -/
lemma exists_prepare_eq (fresh : s.mutationsWithoutSave < s.maxMutations)
    (early : s.staleIterations < twoStageThreshold) :
    ∃ current rng, (Scheduler.prepare s).2 =
      { s with
        current := current
        rng := rng
        scheduleLength := max s.scheduleLength s.scheduledSteps
        scheduledSteps := 0
        branching := #[] } := by
  have kept : s.rotate = s := if_neg fresh.not_ge
  have next : ∃ current rng, s.nextGenerator = { s with current := current, rng := rng } := by
    simp only [nextGenerator, kept]
    split
    · exact ⟨_, _, rfl⟩
    · split
      · rw [derive]
        split
        · exact ⟨_, _, rfl⟩
        · rw [if_neg early.not_ge]
          exact ⟨_, _, rfl⟩
      · exact ⟨s.current, s.rng, rfl⟩
  obtain ⟨current, rng, next⟩ := next
  simp only [Scheduler.prepare, next]
  exact ⟨_, _, rfl⟩

/-- So many runs of nothing. -/
def idle : Nat → List Call
  | 0 => []
  | n + 1 => idle n ++ [.prepare, .observe .empty]

/-- Idle runs have only been counted. -/
structure HasIdled (n : Nat) (s s' : FeedbackStrategy) : Prop where
  corpus : s'.corpus = s.corpus
  signal : s'.signal = s.signal
  maxMutations : s'.maxMutations = s.maxMutations
  mutations : s'.mutationsWithoutSave = s.mutationsWithoutSave + n
  stale : s'.staleIterations = s.staleIterations + n
  longest : max s'.scheduleLength s'.scheduledSteps = max s.scheduleLength s.scheduledSteps

lemma HasIdled.round {s' : FeedbackStrategy} {n : Nat} (h : HasIdled n s s')
    (signal : s.signal = .timeline) (fresh : s.mutationsWithoutSave + n < s.maxMutations)
    (early : s.staleIterations + n < twoStageThreshold) :
    HasIdled (n + 1) s (Scheduler.observe (Scheduler.prepare s').2 .empty) := by
  obtain ⟨current, rng, ready⟩ := exists_prepare_eq (h.mutations ▸ h.maxMutations ▸ fresh)
    (h.stale ▸ early)
  have quiet : ∀ n : Novelty, (n.note s'.signal [] .empty) = (false, n) := by
    intro n
    rw [h.signal, signal]
    rfl
  rw [ready]
  simp only [Scheduler.observe, quiet, Bool.false_eq_true, if_false]
  exact ⟨h.corpus, h.signal, h.maxMutations, congrArg (· + 1) h.mutations,
    congrArg (· + 1) h.stale, (max_zero _).trans h.longest⟩

lemma hasIdled_after (signal : s.signal = .timeline) (n : Nat)
    (fresh : s.mutationsWithoutSave + n ≤ s.maxMutations)
    (early : s.staleIterations + n ≤ twoStageThreshold) : HasIdled n s (after s (idle n)) := by
  induction n with
  | zero => exact ⟨rfl, rfl, rfl, rfl, rfl, rfl⟩
  | succ n ih =>
    have round := (ih (by omega) (by omega)).round signal (by omega) (by omega)
    rw [idle, after, List.foldl_append]
    exact round

/-- A strategy before its first run has a generator at its start, and has counted nothing. -/
lemma exists_ofKind_eq (kind : ScheduleKind) (maxSteps : Nat) (fair : Bool) (seed : UInt64)
    (mode : FeedbackMode) (signal : FeedbackSignal) (maxMutations : Nat) :
    ∃ (current : RunGenerator) (rng : Rng),
      (ofKind kind maxSteps fair seed mode signal).withMaxMutations maxMutations =
        ⟨current, #[], rng, mode, signal, max maxMutations 1, maxSteps, fair, 0, 0, 0, 0, 0, .empty,
          #[], []⟩ ∧
      ∃ g : ScheduleGenerator, current.schedule = g.startIteration 0 ∧ g.settings = (kind, 0) := by
  refine ⟨_, _, rfl, _, rfl, ?_⟩
  cases kind with
  | random => rfl
  | pct maxSwitchPoints sampling => cases sampling <;> rfl
  | pctcp maxSwitchPoints => rfl

/-- The first run to be saved is the one that the next run is derived from, and after five idle runs its
schedule is held. -/
lemma held_after_idle (finished : FeedbackStrategy) (mode : finished.mode = .twoStage)
    (signal : finished.signal = .timeline) (novelty : finished.novelty = .empty)
    (corpus : finished.corpus = #[]) (budget : finished.maxMutations = 50) :
    let saved := after finished [.observe { RunSummary.empty with timelineHash := some 7 }]
    let s := after saved (idle 5)
    let next := after s [.prepare]
    finished.corpus.size < saved.corpus.size ∧ s.source = finished.corpus.size ∧
      s.held = .schedule ∧
      next.scheduleLength = max finished.scheduleLength finished.scheduledSteps ∧
      ∃ rng, next.current.schedule =
        (finished.current.schedule.copied rng).1.startIteration next.scheduleLength := by
  intro saved s next
  have novel : (finished.novelty.note finished.signal finished.branching.toList
      { RunSummary.empty with timelineHash := some 7 }).1 = true := by
    rw [novelty, signal]
    rfl
  have eq : saved = { finished with
      novelty := (finished.novelty.note finished.signal finished.branching.toList
        { RunSummary.empty with timelineHash := some 7 }).2
      corpus := finished.corpus.push finished.current
      lastSavedScheduling := []
      mutationsWithoutSave := 0
      staleIterations := 0 } := if_pos novel
  have idled : HasIdled 5 saved s := by
    refine hasIdled_after ?_ 5 ?_ ?_
    · rw [eq]
      exact signal
    · rw [eq, budget]
      exact Nat.le_of_ble_eq_true rfl
    · rw [eq]
      exact le_refl 5
  rw [eq] at idled
  have kept : s.rotate = s := by
    refine if_neg ?_
    rw [idled.maxMutations, idled.mutations, budget]
    exact Nat.not_le_of_gt (Nat.le_of_ble_eq_true rfl)
  have entry : s.corpus = #[finished.current] := by
    rw [idled.corpus, corpus]
    rfl
  have source : s.source = 0 := by
    rw [FeedbackStrategy.source, kept, entry]
    exact Nat.min_zero _
  have held : s.held = .schedule := by
    rw [FeedbackStrategy.held, kept, idled.stale]
    rfl
  have mode' : s.mode = .twoStage := ((precedes_after (idle 5)).mode.trans
    (precedes_after [.observe { RunSummary.empty with timelineHash := some 7 }]).mode).trans mode
  have entry' : s.corpus[s.source]? = some finished.current := by
    rw [entry, source]
    rfl
  have copied := schedule_prepare mode' entry' held
  have longest : next.scheduleLength = max s.scheduleLength s.scheduledSteps := rfl
  refine ⟨?_, ?_, held, longest.trans idled.longest, copied⟩
  · rw [eq]
    simp
  · rw [source, corpus]
    rfl

/-- Two actors can run. -/
abbrev turn : Call := .request (.operation [.ofActor 0 "a", .ofActor 1 "b"])

/-- Of two actors the first runs, unless the change comes at once. -/
lemma answers_turn {g : PctSchedule} (settings : g.settings = (.pct 1 .shuffled, 0)) {length : Nat}
    (short : length ≤ 1) (begun : s.current.schedule = .pct (g.startIteration length)) :
    answers .schedule s [turn] = [.ok (some (.schedule (if length = 0 then 0 else 1)))] := by
  have first := PctSchedule.fst_next_of_two settings short
    (a := .ofActor 0 "a") (b := .ofActor 1 "b") (by decide)
  have answered : answers .schedule s [turn] =
      [((s.current.schedule.next [.ofActor 0 "a", .ofActor 1 "b"]).1.map some).map
        (Option.map .schedule)] := rfl
  have picked : ((ScheduleGenerator.pct (g.startIteration length)).next
      [.ofActor 0 "a", .ofActor 1 "b"]).1 = .ok (if length = 0 then 0 else 1) := first
  rw [answered, begun, picked]
  rfl

/-- In two stages, the half that is held answers in the next run as it did in the saved run, as long as
the requests for it are the same. A schedule with change points does so if no run has been longer than
those before the saved run. -/
theorem answers_of_held_half (kind : ScheduleKind) (maxSteps : Nat) (fair : Bool) (seed : UInt64)
    (signal : FeedbackSignal) (maxMutations : Nat) {earlier run rest calls : List Call}
    {summary : RunSummary} (begins : earlier = [] ∨ ∃ calls, earlier = calls ++ [.prepare])
    (one : .prepare ∉ run) (one' : .prepare ∉ calls) :
    let start := (ofKind kind maxSteps fair seed .twoStage signal).withMaxMutations maxMutations
    let before := after start earlier
    let finished := after before run
    let saved := after finished [.observe summary]
    let s := after saved rest
    let next := after s [.prepare]
    finished.corpus.size < saved.corpus.size → s.source = finished.corpus.size →
    s.held = .inputs ∨ kind = .random ∨ next.scheduleLength ≤ before.scheduleLength →
    requests s.held calls <+: requests s.held run →
    answers s.held next calls <+: answers s.held before run := by
  intro start before finished saved s next grown source bounded same
  obtain ⟨g, begun⟩ := exists_current_eq_startIteration kind maxSteps fair seed .twoStage signal
    maxMutations begins
  have mode : s.mode = .twoStage :=
    calc s.mode = saved.mode := (precedes_after rest).mode
      _ = finished.mode := (precedes_after [.observe summary]).mode
      _ = before.mode := (precedes_after run).mode
      _ = .twoStage := (precedes_after earlier).mode
  -- What was saved is still in the corpus, and the next generator is made from it.
  have pushed : saved.corpus = finished.corpus.push finished.current := corpus_observe grown
  have entry : s.corpus[s.source]? = some finished.current := by
    refine ChoiceStream.getElem?_of_prefix (precedes_after rest).corpus ?_
    rw [source, pushed, Array.getElem?_push_size]
  cases held : s.held with
  | inputs =>
    rw [held] at same
    have fresh : before.current.input.ints.cursor = 0 := by rw [begun]; rfl
    exact answers_of_copied_inputs one one' fresh same (ints_prepare mode entry held)
  | schedule =>
    rw [held] at same bounded
    have unchanged : g.schedule.isRandom = true ∨ next.scheduleLength ≤ before.scheduleLength := by
      obtain inputs | rfl | le := bounded
      · cases inputs
      · have random : before.IsRandom :=
          (isRandom_ofKind maxSteps fair seed .twoStage signal maxMutations).after earlier
        rw [← ScheduleGenerator.isRandom_startIteration before.scheduleLength]
        exact .inl ((congrArg (·.schedule.isRandom) begun).symm.trans random.current)
      · exact .inr le
    obtain ⟨rng, copied⟩ := schedule_prepare mode entry held
    exact answers_of_copied_schedule one one' (congrArg (·.schedule) begun) unchanged same copied

/-- Two actors that take turns, in a first run and in the second, which is saved. No run since has been
longer, and the schedule is held in the eighth. -/
theorem answers_of_held_schedule :
    let start := (ofKind (.pct 1 .shuffled) 0 false 42 .twoStage .timeline).withMaxMutations 50
    let before := after start [turn, turn, .observe .empty, .prepare]
    let finished := after before [turn, turn]
    let saved := after finished [.observe { RunSummary.empty with timelineHash := some 7 }]
    let s := after saved (idle 5)
    let next := after s [.prepare]
    finished.corpus.size < saved.corpus.size ∧ s.source = finished.corpus.size ∧
      s.held = .schedule ∧ next.scheduleLength ≤ before.scheduleLength ∧
      answers .schedule next [turn, turn] <+: answers .schedule before [turn, turn] := by
  obtain ⟨current, rng, begun, -⟩ :=
    exists_ofKind_eq (.pct 1 .shuffled) 0 false 42 .twoStage .timeline 50
  have repeats := @answers_of_held_half (.pct 1 .shuffled) 0 false 42 .timeline 50
    [turn, turn, .observe .empty, .prepare] [turn, turn] (idle 5) [turn, turn]
    { RunSummary.empty with timelineHash := some 7 } (.inr ⟨[turn, turn, .observe .empty], rfl⟩)
    (by simp) (by simp)
  rw [begun] at repeats ⊢
  intro start before finished saved s next
  obtain ⟨current, rng, ready⟩ : ∃ current rng, before =
      ⟨current, #[], rng, .twoStage, .timeline, 50, 0, false, 0, 2, 0, 1, 1, .empty, #[], []⟩ :=
    exists_prepare_eq (s := after start [turn, turn, .observe .empty])
      (Nat.lt_of_sub_eq_succ rfl) (Nat.lt_of_sub_eq_succ rfl)
  obtain ⟨current, rng, branching, played⟩ : ∃ current rng branching, finished =
      ⟨current, #[], rng, .twoStage, .timeline, 50, 0, false, 2, 2, 0, 1, 1, .empty, branching, []⟩ := by
    rw [show finished = after before [turn, turn] from rfl, ready]
    exact ⟨_, _, _, rfl⟩
  obtain ⟨grown, source, held, longest, -⟩ := held_after_idle finished
    (by rw [played]) (by rw [played]) (by rw [played]) (by rw [played]) (by rw [played])
  have le : next.scheduleLength ≤ before.scheduleLength := by
    rw [longest, played, ready]
    exact le_refl 2
  have repeats : answers s.held next [turn, turn] <+: answers s.held before [turn, turn] :=
    repeats grown source (.inr (.inr le)) (List.prefix_refl _)
  rw [held] at repeats
  exact ⟨grown, source, held, le, repeats⟩

/-- The first run is saved before any length is known, and has no change points. With the schedule held,
the change that falls into a run of its length makes the other actor go first. -/
theorem other_answers_of_held_schedule :
    let start := (ofKind (.pct 1 .shuffled) 0 false 42 .twoStage .timeline).withMaxMutations 50
    let finished := after start [turn]
    let saved := after finished [.observe { RunSummary.empty with timelineHash := some 7 }]
    let s := after saved (idle 5)
    let next := after s [.prepare]
    finished.corpus.size < saved.corpus.size ∧ s.source = finished.corpus.size ∧
      s.held = .schedule ∧
      answers .schedule start [turn] = [.ok (some (.schedule 0))] ∧
      answers .schedule next [turn] = [.ok (some (.schedule 1))] := by
  obtain ⟨⟨input, _⟩, rng, begun, g, rfl, settings⟩ :=
    exists_ofKind_eq (.pct 1 .shuffled) 0 false 42 .twoStage .timeline 50
  rw [begun]
  intro start finished saved s next
  cases g with
  | random g => cases settings
  | pctcp g => cases settings
  | pct g =>
    let g' := ((g.startIteration 0).next [.ofActor 0 "a", .ofActor 1 "b"]).2
    obtain ⟨branching, played⟩ : ∃ branching, finished = ⟨⟨input, .pct g'⟩, #[], rng, .twoStage,
        .timeline, 50, 0, false, 1, 0, 0, 0, 0, .empty, branching, []⟩ := ⟨_, rfl⟩
    obtain ⟨grown, source, held, longest, rng', copied⟩ := held_after_idle finished
      (by rw [played]) (by rw [played]) (by rw [played]) (by rw [played]) (by rw [played])
    have settings' : (g'.copied rng').1.settings = (.pct 1 .shuffled, 0) := by
      rw [PctSchedule.settings_copied, PctSchedule.settings_next, ← settings]
      exact (g.settings_startIteration 0).trans (congrArg _ (max_zero _))
    have copied : next.current.schedule = .pct ((g'.copied rng').1.startIteration 1) := by
      rw [copied, longest, played]
      rfl
    exact ⟨grown, source, held, answers_turn settings (Nat.zero_le 1) rfl,
      answers_turn settings' (Nat.le_refl 1) copied⟩

end FeedbackStrategy

end Interleaving
