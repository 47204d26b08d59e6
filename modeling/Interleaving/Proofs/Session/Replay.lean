import Interleaving.Proofs.Session.Decisions
import Interleaving.Proofs.Session.Rounds
import Interleaving.Proofs.Session.Start

/-!
# Replaying a bug

Each bug that a session reports comes from a play (`BugReport.IsRecorded`): its trace holds the
decisions of the play after the headers of the session. A session that replays the trace makes the
same play, and reports the same bug.
-/

namespace Interleaving

variable {σ ω : Type} {config : Config} {program : Program σ} {bound fuel : Nat} {fair : Bool}

/-- The trace of a run that has not begun. -/
def Config.headers (c : Config) (fair : Bool) : Trace :=
  ⟨#[], fair, c.livenessThreshold, c.testMethod⟩

/-- The bug was found in a play of the program within the bound of the settings, or is that a play
reached the bound; and the trace holds the decisions of the play. -/
def BugReport.IsRecorded (config : Config) (program : Program σ) (fuel : Nat)
    (bug : BugReport) : Prop :=
  ∃ steps first,
    program.Plays config.maxSteps.toNat fuel 0 program.initial steps first ∧
    (first = some bug.message ∨
      first = none ∧ config.failOnMaxSteps = true ∧
        bug.message = Explorer.boundMessage steps.length) ∧
    bug.steps = .ofNat steps.length ∧
    bug.trace = ((config.headers config.strategy.isFair).extend steps).text

namespace Explorer

variable {x : Explorer σ Strategy} {e : Execution σ Strategy}

/-- The session is one of a program under some settings, and all its bugs come from plays. -/
structure Records (config : Config) (program : Program σ) (fuel : Nat)
    (x : Explorer σ Strategy) : Prop where
  config_eq : x.config = config
  program_eq : x.program = program
  bugs : ∀ bug ∈ x.bugs.bugs, bug.IsRecorded config program fuel

/-- The bug of a run that has come to its end. -/
def bugOf (x : Explorer σ Strategy) (e : Execution σ Strategy) (reached : Bool) : Option String :=
  if reached && x.config.failOnMaxSteps then some (boundMessage (Scheduler.scheduledSteps e.strategy))
  else e.bug

lemma bugs_finish_of_none {reached : Bool} (h : x.bugOf e reached = none) :
    (x.finish e reached).2.bugs = x.bugs := by
  rw [bugOf] at h
  simp only [finish, h]
  rfl

/-- The bug of a run is logged with the decisions of the run and their number. -/
lemma bugs_finish_of_some {reached : Bool} {message : String}
    (h : x.bugOf e reached = some message) :
    ∃ bug : BugReport, (x.finish e reached).2.bugs.bugs = x.bugs.bugs.push bug ∧
      bug.message = message ∧ bug.steps = .ofNat (Scheduler.scheduledSteps e.strategy) ∧
      bug.trace = e.trace.text := by
  rw [bugOf] at h
  simp only [finish, h]
  exact ⟨_, rfl, rfl, rfl, rfl⟩

lemma isLive_nextExecution (runs : x.execution.strategy.Runs bound fair 0) :
    x.nextExecution.IsLive bound fair := runs

lemma addBug_eq (iteration : UInt64) (steps : Nat) (bug : Option String) :
    (x.addBug iteration steps bug).config = x.config ∧
      (x.addBug iteration steps bug).program = x.program ∧
      (x.addBug iteration steps bug).execution = x.execution := by
  cases bug <;> exact ⟨rfl, rfl, rfl⟩

lemma Records.finish_of_none {reached : Bool} (R : x.Records config program fuel)
    (none : x.bugOf e reached = none) : (x.finish e reached).2.Records config program fuel := by
  refine ⟨(addBug_eq ..).1.trans R.config_eq, (addBug_eq ..).2.1.trans R.program_eq, ?_⟩
  rw [bugs_finish_of_none none]
  exact R.bugs

/-- The bug of a run that was a play is recorded with the decisions of the play. -/
lemma Records.finish_of_isPlay {reached : Bool} (R : x.Records config program fuel)
    (runs : x.execution.strategy.Runs config.maxSteps.toNat config.strategy.isFair 0)
    (play : Execution.IsPlay program config.maxSteps.toNat fuel config.strategy.isFair
      x.nextExecution e)
    (clean : reached = true → e.bug = none) : (x.finish e reached).2.Records config program fuel := by
  cases found : x.bugOf e reached with
  | none => exact R.finish_of_none found
  | some message =>
    obtain ⟨steps, plays, trace, live⟩ := play
    have headers : x.nextExecution.trace = config.headers config.strategy.isFair := by
      have isFair : Scheduler.isFair x.execution.strategy = config.strategy.isFair := runs.isFair
      rw [nextExecution, isFair, R.config_eq]
      rfl
    have start : x.nextExecution.state = program.initial := by
      rw [← R.program_eq]
      rfl
    rw [headers] at plays trace
    rw [start] at plays
    have count : Scheduler.scheduledSteps e.strategy = steps.length := by
      have count : Scheduler.scheduledSteps e.strategy = e.trace.steps.size :=
        Strategy.Runs.scheduledSteps live
      rw [count, trace, Trace.size_extend]
      exact Nat.zero_add _
    have first : e.bug = some message ∨
        e.bug = none ∧ config.failOnMaxSteps = true ∧ message = boundMessage steps.length := by
      rw [bugOf, R.config_eq, count] at found
      split at found
      · next reaches =>
        obtain ⟨rfl, fails⟩ := (Bool.and_eq_true ..).mp reaches
        cases found
        exact .inr ⟨clean rfl, fails, rfl⟩
      · exact .inl found
    refine ⟨(addBug_eq ..).1.trans R.config_eq, (addBug_eq ..).2.1.trans R.program_eq, ?_⟩
    obtain ⟨logged, bugs, rfl, counted, traced⟩ := bugs_finish_of_some found
    rw [bugs]
    intro bug mem
    obtain mem | rfl := Array.mem_push.mp mem
    · exact R.bugs bug mem
    · exact ⟨steps, e.bug, plays, first, by rw [counted, count], by rw [traced, trace]⟩

lemma runs_finish {reached : Bool} {n : Nat} (runs : e.strategy.Runs bound fair n) :
    (x.finish e reached).2.execution.strategy.Runs bound fair n := by
  have eq : (x.finish e reached).2.execution.strategy = Scheduler.observe e.strategy
      (e.observer.summary (Scheduler.scheduledSteps e.strategy) (x.bugOf e reached).isSome) :=
    congrArg Execution.strategy (addBug_eq ..).2.2
  rw [eq]
  exact Strategy.Runs.observe runs _

/-- A run leaves all bugs recorded, and a strategy that is ready to be prepared for the next. -/
lemma Records.runIteration (R : x.Records config program fuel)
    (runs : x.execution.strategy.Runs config.maxSteps.toNat config.strategy.isFair 0) :
    (x.runIteration fuel).2.Records config program fuel ∧
      ∀ row, (x.runIteration fuel).1 = .ok row →
        ∃ n, (x.runIteration fuel).2.execution.strategy.Runs config.maxSteps.toNat
          config.strategy.isFair n := by
  cases h : x.nextExecution.run x.program fuel with
  | mk ending e =>
    have ends := Execution.ends_of_run (isLive_nextExecution runs) rfl h
    rw [R.program_eq] at ends
    rw [Explorer.runIteration, h]
    cases ends with
    | quiet clean runs => exact ⟨R.finish_of_none (by simpa [bugOf]), fun _ _ => ⟨_, runs_finish runs⟩⟩
    | bug found play =>
      have live := play.choose_spec.2.2
      exact ⟨R.finish_of_isPlay runs play (by simp), fun _ _ => ⟨_, runs_finish live⟩⟩
    | bound clean play =>
      have live := play.choose_spec.2.2
      exact ⟨R.finish_of_isPlay runs play fun _ => clean, fun _ _ => ⟨_, runs_finish live⟩⟩
    | failed => exact ⟨⟨R.config_eq, R.program_eq, R.bugs⟩, fun _ h => by cases h⟩
    | unfinished => exact ⟨⟨R.config_eq, R.program_eq, R.bugs⟩, fun _ h => by cases h⟩

/-- All bugs of a session are recorded, however its runs come to their end. -/
lemma Records.proceeds {y : Explorer σ Strategy} {left : Nat} {made : List (FinishedRun σ Strategy)}
    {result : Except ExploreError StopReason} (R : x.Records config program fuel)
    (runs : x.execution.strategy.Runs config.maxSteps.toNat config.strategy.isFair 0)
    (h : Proceeds fuel left x made result y) : y.Records config program fuel := by
  induction h with
  | spent | stopped | timedOut => exact R
  | failed ran | bugFound ran | last ran =>
    have R' := (R.runIteration runs).1
    rwa [ran] at R'
  | exhausted ran =>
    have R' := (R.runIteration runs).1
    rw [ran] at R'
    exact ⟨R'.config_eq, R'.program_eq, R'.bugs⟩
  | @next x y z left row rest result ran _ _ _ ih =>
    obtain ⟨R', after⟩ := R.runIteration runs
    rw [ran] at R' after
    obtain ⟨n, runs⟩ := after row rfl
    -- Between two runs the strategy has been prepared, so it has made no decision.
    obtain ⟨s', prepared, runs⟩ := runs.prepare
    have prepared : y.prepare.2 = { y with execution := { y.execution with strategy := s' } } := by
      have h : Scheduler.prepare y.execution.strategy = (true, s') := prepared
      rw [Explorer.prepare, h]
    rw [prepared] at ih
    exact ih ⟨R'.config_eq, R'.program_eq, R'.bugs⟩ runs

lemma Records.run {elapsed : StateM ω Nat} {w : ω} (R : x.Records config program fuel)
    (runs : x.execution.strategy.Runs config.maxSteps.toNat config.strategy.isFair 0) :
    (x.run fuel elapsed w).1.2.Records config program fuel := by
  obtain ⟨made, result, z, nanos, proceeds, eq⟩ := proceeds_run fuel elapsed x w
  rw [eq]
  exact R.proceeds runs proceeds

/-- Settings under which a session can start are good for a replay as well. -/
lemma validate_replayConfig {T : Trace} (h : config.validate = .ok ()) :
    (replayConfig config T).validate = .ok () := by
  rw [Config.validate] at h ⊢
  by_cases none : config.iterations = 0
  · rw [if_pos none] at h
    cases h
  · rw [if_neg none] at h
    exact h

lemma forReplay_eq {matcher : Option Matcher} (valid : config.validate = .ok ())
    (compiled : config.compilePattern = .ok matcher) (T : Trace) :
    forReplay config program T = .ok (start (replayConfig config T) program matcher
      (.replay (.ofTrace T config.maxSteps.toNat))) := by
  have valid := validate_replayConfig (T := T) valid
  have compiled : (replayConfig config T).compilePattern = .ok matcher := compiled
  simp only [forReplay, withStrategy, valid, compiled]
  rfl

section Replayed

variable {T : Trace} {steps : List TraceStep} {first : Option String}
variable {fuel' : Nat}

/-- The session that replays a trace, before its run. -/
def replaying (config : Config) (program : Program σ) (matcher : Option Matcher) (T : Trace) :
    Explorer σ Strategy :=
  start (replayConfig config T) program matcher (.replay (.ofTrace T config.maxSteps.toNat))

lemma replays_nextExecution (program : Program σ) (matcher : Option Matcher)
    (trace : T = (config.headers fair).extend steps) :
    (replaying config program matcher T).nextExecution.trace = config.headers fair ∧
      (replaying config program matcher T).nextExecution.Replays T config.maxSteps.toNat steps := by
  rw [trace, Trace.extend_eq]
  refine ⟨rfl, rfl, ?_⟩
  simp [replaying, nextExecution, Config.headers, Trace.empty]

/-- The run of a replay comes to the same end as the play that it repeats. -/
lemma runIteration_replaying (matcher : Option Matcher) (ignores : program.IgnoresRaces)
    (plays : program.Plays config.maxSteps.toNat fuel 0 program.initial steps first)
    (trace : T = (config.headers fair).extend steps) (le : fuel ≤ fuel') :
    ∃ f : Execution σ Strategy, f.bug = first ∧ f.trace = T ∧
      Scheduler.scheduledSteps f.strategy = steps.length ∧
      (replaying config program matcher T).runIteration fuel' =
        (.ok ((replaying config program matcher T).finish f first.isNone).1,
          ((replaying config program matcher T).finish f first.isNone).2) := by
  obtain ⟨headers, replays⟩ := replays_nextExecution program matcher trace
  obtain ⟨f, ran, bug, trace', replays⟩ :=
    Execution.run_replay plays ignores replays rfl rfl rfl le
  rw [headers, ← trace] at trace'
  have count : Scheduler.scheduledSteps f.strategy = steps.length := by
    have count : Scheduler.scheduledSteps f.strategy = f.trace.steps.size := by
      rw [replays.strategy]
      rfl
    rw [count, trace', trace, Trace.size_extend]
    exact Nat.zero_add _
  refine ⟨f, bug, trace', count, ?_⟩
  have ran : (replaying config program matcher T).nextExecution.run
      (replaying config program matcher T).program fuel' =
        (if first.isSome then .bug else .bound, f) := ran
  rw [Explorer.runIteration, ran]
  cases first <;> rfl

/-- A replay of the trace of a recorded bug reports that bug, and nothing else. -/
lemma trace_of_isRecorded (matcher : Option Matcher) (ignores : program.IgnoresRaces)
    (timeout : config.timeoutSecs = none) {bug : BugReport}
    (recorded : bug.IsRecorded config program fuel) :
    ∃ T, bug.trace = T.text ∧ T.testMethod = config.testMethod ∧
      ∀ fuel' ≥ fuel, ∀ (elapsed : StateM ω Nat) (w : ω), ∃ report bug',
        ((replaying config program matcher T).run fuel' elapsed w).1.1 = .ok report ∧
        report.bugs = [bug'] ∧ bug'.message = bug.message ∧ bug'.steps = bug.steps ∧
        bug'.trace = bug.trace := by
  obtain ⟨steps, first, plays, message, count, trace⟩ := recorded
  refine ⟨_, trace, ?_, fun fuel' le elapsed w => ?_⟩
  · rw [Trace.extend_eq]
    rfl
  generalize eq : (config.headers config.strategy.isFair).extend steps = T at trace ⊢
  obtain ⟨f, rfl, traced, counted, ran⟩ :=
    runIteration_replaying matcher ignores plays eq.symm le
  have found : (replaying config program matcher T).bugOf f f.bug.isNone = some bug.message := by
    obtain h | ⟨h, fails, h'⟩ := message
    · rw [bugOf, h]
      rfl
    · have fails : (replaying config program matcher T).config.failOnMaxSteps = true := fails
      rw [bugOf, h, fails, counted, h']
      rfl
  have row : ((replaying config program matcher T).finish f f.bug.isNone).1.bug.isSome = true :=
    congrArg Option.isSome found
  have stops : ((replaying config program matcher T).finish f
      f.bug.isNone).2.config.fullExploration = false := congrArg Config.fullExploration (addBug_eq ..).1
  obtain ⟨bug', bugs, message, counted', traced'⟩ := bugs_finish_of_some found
  -- A replay makes one run, so the bug found in it is the only one reported.
  obtain ⟨made, result, z, nanos, proceeds, eq⟩ :=
    proceeds_run fuel' elapsed (replaying config program matcher T) w
  have once : (replaying config program matcher T).config.iterations.toNat = 0 + 1 := rfl
  rw [once] at proceeds
  obtain ⟨rfl, rfl, rfl⟩ := proceeds.of_bug rfl timeout ran (by rw [stopsAfter, row, stops]; rfl)
  have report := congrArg Prod.fst eq
  refine ⟨_, bug', report, congrArg Array.toList bugs, message, ?_, ?_⟩
  · rw [counted', counted, count]
  · rw [traced', traced, trace]

end Replayed

/-- Every bug that a new session reports in a run of it can be replayed. Its trace is read back, and a
session that replays the trace ends without an error and reports one bug, with the same message, the
same number of steps and the same trace. -/
theorem replay_of_run (started : Explorer.new config program = .ok x)
    (timeout : config.timeoutSecs = none) (method : ∀ name ∈ config.testMethod, Trace.IsLine name)
    (ignores : program.IgnoresRaces) (elapsed : StateM ω Nat) (w : ω) :
    ∀ bug ∈ (x.run fuel elapsed w).1.2.bugs.bugs, ∃ trace y,
      Trace.parse bug.trace = .ok trace ∧ Explorer.forReplay config program trace = .ok y ∧
      ∀ fuel' ≥ fuel, ∀ (elapsed' : StateM ω Nat) (w' : ω), ∃ report bug',
        (y.run fuel' elapsed' w').1.1 = .ok report ∧ report.bugs = [bug'] ∧
        bug'.message = bug.message ∧ bug'.steps = bug.steps ∧ bug'.trace = bug.trace := by
  obtain ⟨matcher, strategy, valid, compiled, built, rfl⟩ := eq_start_of_new started
  have R : (start config program matcher strategy).Records config program fuel :=
    ⟨rfl, rfl, fun bug mem => absurd mem (Array.not_mem_empty bug)⟩
  intro bug mem
  have recorded := (R.run (Config.runs_of_buildStrategy built)).bugs bug mem
  obtain ⟨trace, text, name, replayed⟩ :=
    trace_of_isRecorded matcher ignores timeout recorded
  refine ⟨trace, replaying config program matcher trace, ?_, forReplay_eq valid compiled trace,
    fun fuel' le elapsed' w' => replayed fuel' le elapsed' w'⟩
  rw [text]
  exact Trace.parse_text fun name' h => method name' (name ▸ h)

/-- Two clients that race for a register under the standard settings: the bug is found in the first
run, and its replay reports it again. -/
theorem replay_of_registerRace :
    let config := { Config.standard with testMethod := some "register race" }
    let program := RegisterRace.program 2
    let x := start config program none (config.renewing .random)
    Explorer.new config program = .ok x ∧
    ∃ bug ∈ (x.run 30 (pure 0 : StateM Unit Nat) ()).1.2.bugs.bugs, ∃ trace y,
      Trace.parse bug.trace = .ok trace ∧ Explorer.forReplay config program trace = .ok y ∧
      ∀ fuel' ≥ 30, ∀ (elapsed' : StateM Unit Nat) (w' : Unit), ∃ report bug',
        (y.run fuel' elapsed' w').1.1 = .ok report ∧ report.bugs = [bug'] ∧
        bug'.message = bug.message ∧ bug'.steps = bug.steps ∧ bug'.trace = bug.trace := by
  intro config program x
  have started : Explorer.new config program = .ok x := rfl
  have found : 0 < (x.run 30 (pure 0 : StateM Unit Nat) ()).1.2.bugs.bugs.size := by decide +kernel
  have method : ∀ name ∈ config.testMethod, Trace.IsLine name := by
    intro name h
    cases h
    decide
  have mem := Array.getElem_mem found
  exact ⟨started, _, mem, replay_of_run started rfl method (RegisterRace.ignoresRaces 2)
    (pure 0 : StateM Unit Nat) () _ mem⟩

end Explorer

end Interleaving
