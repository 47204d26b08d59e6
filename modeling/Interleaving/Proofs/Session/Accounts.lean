import Mathlib
import Interleaving.Proofs.Session.Coverage
import Interleaving.Proofs.Session.Rounds
import Interleaving.Proofs.Session.Start
import Interleaving.Program.RegisterRace

/-!
# What a session counts

Every run that comes to its end is counted once, and nothing else is (`Explorer.AddsUp`): a session
has so many more runs behind it, as many more steps and new pairs of events as the runs have, and a
bug with a number of its own for each run that showed one. So a report adds up, and it names the
reason for which no more runs were made (`Explorer.account_of_explore`).
-/

namespace Interleaving

/-- So many numbers in turn. -/
def countFrom (first : UInt64) (n : Nat) : List UInt64 :=
  (List.range n).map fun i => first + .ofNat i

lemma countFrom_add (first : UInt64) (m n : Nat) :
    countFrom first (m + n) = countFrom first m ++ countFrom (first + .ofNat m) n := by
  rw [countFrom, List.range_add, List.map_append, List.map_map]
  congr 1
  refine List.map_congr_left fun i _ => ?_
  show first + .ofNat (m + i) = first + .ofNat m + .ofNat i
  rw [UInt64.ofNat_add, add_assoc]

lemma countFrom_succ (first : UInt64) (n : Nat) :
    countFrom first (n + 1) = countFrom first n ++ [first + .ofNat n] := by
  rw [countFrom_add]
  simp [countFrom]

/-- No number comes twice before all have come. -/
lemma nodup_countFrom (first : UInt64) {n : Nat} (fits : n ≤ 2 ^ 64) : (countFrom first n).Nodup := by
  refine List.Nodup.map_on (fun i hi j hj eq => ?_) List.nodup_range
  have eq := congrArg UInt64.toNat (add_left_cancel eq)
  rw [UInt64.toNat_ofNat_of_lt' (by grind), UInt64.toNat_ofNat_of_lt' (by grind)] at eq
  exact eq

namespace BugLog

variable {l l' : BugLog}

/-- Numbers bugs from `first` on. -/
def number (first : UInt64) (bugs : List BugReport) : List BugReport :=
  bugs.mapIdx fun i bug => { bug with bugId := first + .ofNat i }

lemma length_number (first : UInt64) (bugs : List BugReport) :
    (number first bugs).length = bugs.length := List.length_mapIdx

lemma map_bugId_number (first : UInt64) (bugs : List BugReport) :
    (number first bugs).map (·.bugId) = countFrom first bugs.length := by
  refine List.ext_getElem (by simp [number, countFrom]) fun i _ _ => ?_
  simp [number, countFrom]

lemma map_iteration_number (first : UInt64) (bugs : List BugReport) :
    (number first bugs).map (·.iteration) = bugs.map (·.iteration) :=
  List.ext_getElem (by simp [number]) fun i _ _ => by simp [number]

lemma number_singleton (first : UInt64) (bug : BugReport) :
    number first [bug] = [{ bug with bugId := first }] := by
  simp [number]

lemma number_append (first : UInt64) (bugs bugs' : List BugReport) :
    number first (bugs ++ bugs') = number first bugs ++ number (first + .ofNat bugs.length) bugs' := by
  have place (i : Nat) :
      first + UInt64.ofNat (i + bugs.length) = first + .ofNat bugs.length + .ofNat i := by
    rw [Nat.add_comm, UInt64.ofNat_add, add_assoc]
  simp only [number, List.mapIdx_append, place]

/-- The bugs are numbered from zero on, as long as there are numbers. -/
structure Numbered (l : BugLog) : Prop where
  bugIds : l.bugs.size ≤ 2 ^ 64 → l.bugs.toList.map (·.bugId) = countFrom 0 l.bugs.size
  nextId : l.bugs.size < 2 ^ 64 → l.nextId = .ofNat l.bugs.size

lemma numbered_empty : empty.Numbered := ⟨fun _ => rfl, fun _ => rfl⟩

/-- No two bugs have the same number. -/
lemma Numbered.nodup (N : l.Numbered) (fits : l.bugs.size ≤ 2 ^ 64) :
    (l.bugs.toList.map (·.bugId)).Nodup := by
  rw [N.bugIds fits]
  exact nodup_countFrom 0 fits

/-- Bugs that get the next numbers have numbers that no bug has had. -/
lemma Numbered.append (N : l.Numbered) {bugs : List BugReport}
    (eq : l'.bugs.toList = l.bugs.toList ++ number l.nextId bugs)
    (nextId : l'.nextId = l.nextId + .ofNat bugs.length) : l'.Numbered := by
  have size : l'.bugs.size = l.bugs.size + bugs.length := by
    rw [← Array.length_toList, eq, List.length_append, length_number, Array.length_toList]
  constructor
  · intro fits
    rw [eq, List.map_append, map_bugId_number, size, countFrom_add, N.bugIds (by omega)]
    cases bugs with
    | nil => rfl
    | cons bug bugs =>
      rw [List.length_cons] at size
      rw [N.nextId (by omega), zero_add]
  · intro fits
    rw [nextId, N.nextId (by omega), size, UInt64.ofNat_add]

/-- Numbers go on where they were when a session goes on from what is kept of another. -/
lemma Numbered.ofReports (N : l.Numbered) : (ofReports l.bugs.toList).Numbered := by
  refine ⟨N.bugIds, fun fits => ?_⟩
  have fits : l.bugs.size < 2 ^ 64 := fits
  -- Each number is one more than the largest before it, so that the largest is always the last.
  have all : ∀ n < 2 ^ 64, (countFrom 0 n).foldl (fun next id => max next (id + 1)) 0 = .ofNat n := by
    intro n
    induction n with
    | zero => exact fun _ => rfl
    | succ n ih =>
      intro lt
      rw [countFrom_succ, List.foldl_append, ih (by omega), List.foldl_cons, List.foldl_nil, zero_add]
      have next : UInt64.ofNat n + 1 = .ofNat (n + 1) := (UInt64.ofNat_add n 1).symm
      have le : UInt64.ofNat n ≤ .ofNat (n + 1) := by
        rw [UInt64.le_iff_toNat_le, UInt64.toNat_ofNat_of_lt' lt,
          UInt64.toNat_ofNat_of_lt' (Nat.lt_of_succ_lt lt)]
        exact Nat.le_succ n
      rw [next]
      exact if_pos le
  show l.bugs.toList.foldl (fun next bug => max next (bug.bugId + 1)) 0 = .ofNat l.bugs.size
  rw [← all _ fits, ← N.bugIds (Nat.le_of_lt fits), List.foldl_map]

end BugLog

namespace FinishedRun

variable {σ S : Type} [Scheduler S]

/-- The events of the run. -/
def coverage (run : FinishedRun σ S) : EventCoverage := run.session.execution.observer.coverage

/-- The bug that the run showed, before it gets a number. -/
def bug? (run : FinishedRun σ S) : Option BugReport :=
  run.row.bug.map fun message =>
    { bugId := 0
      iteration := run.row.iteration
      message
      steps := run.row.steps
      strategy := Scheduler.description run.session.execution.strategy
      trace := run.session.execution.trace.text }

end FinishedRun

namespace Explorer

variable {σ S ω : Type} [Scheduler S] {x y z : Explorer σ S} {fuel left : Nat}
  {made made' : List (FinishedRun σ S)} {result : Except ExploreError StopReason}

/-- Between `x` and `z`, a session has counted the runs made, and nothing else. -/
structure AddsUp (x : Explorer σ S) (made : List (FinishedRun σ S)) (z : Explorer σ S) : Prop where
  config : z.config = x.config
  stopRequested : z.stopRequested = x.stopRequested
  iterations : z.iterationsCompleted = x.iterationsCompleted + .ofNat made.length
  coverageRuns : z.coverage.runs = x.coverage.runs + .ofNat made.length
  totalSteps : z.totalSteps = x.totalSteps + (made.map (·.row.steps)).sum
  pairs : z.coverage.total.count =
    x.coverage.total.count + (made.map (·.row.newCoverage)).sum
  hits : ∀ key, z.coverage.total.hitsAt key =
    (made.map (·.coverage.hitsAt key)).foldl max (x.coverage.total.hitsAt key)
  numbers : made.map (·.row.iteration) = countFrom x.iterationsCompleted made.length
  bugs : z.bugs.bugs.toList =
    x.bugs.bugs.toList ++ BugLog.number x.bugs.nextId (made.filterMap (·.bug?))
  nextId : z.bugs.nextId = x.bugs.nextId + .ofNat (made.filterMap (·.bug?)).length

namespace AddsUp

/-- What a session does besides counting runs leaves no trace in the counts. -/
lemma setExecution (x : Explorer σ S) (e : Execution σ S) :
    x.AddsUp [] { x with execution := e } where
  config := rfl
  stopRequested := rfl
  iterations := (add_zero _).symm
  coverageRuns := (add_zero _).symm
  totalSteps := (add_zero _).symm
  pairs := rfl
  hits _ := rfl
  numbers := rfl
  bugs := (List.append_nil _).symm
  nextId := (add_zero _).symm

lemma refl (x : Explorer σ S) : x.AddsUp [] x := setExecution x x.execution

lemma prepare (x : Explorer σ S) : x.AddsUp [] x.prepare.2 := setExecution x _

lemma trans (h : x.AddsUp made y) (h' : y.AddsUp made' z) : x.AddsUp (made ++ made') z where
  config := h'.config.trans h.config
  stopRequested := h'.stopRequested.trans h.stopRequested
  iterations := by
    rw [h'.iterations, h.iterations, List.length_append, UInt64.ofNat_add, add_assoc]
  coverageRuns := by
    rw [h'.coverageRuns, h.coverageRuns, List.length_append, UInt64.ofNat_add, add_assoc]
  totalSteps := by
    rw [h'.totalSteps, h.totalSteps, List.map_append, List.sum_append, add_assoc]
  pairs := by
    rw [h'.pairs, h.pairs, List.map_append, List.sum_append, add_assoc]
  hits key := by
    rw [h'.hits, h.hits, List.map_append, List.foldl_append]
  numbers := by
    rw [List.map_append, h.numbers, h'.numbers, h.iterations, List.length_append, countFrom_add]
  bugs := by
    rw [h'.bugs, h.bugs, h.nextId, List.filterMap_append, BugLog.number_append, List.append_assoc]
  nextId := by
    rw [h'.nextId, h.nextId, List.filterMap_append, List.length_append, UInt64.ofNat_add, add_assoc]

end AddsUp

/-- A run that comes to its end is counted with the steps, the new pairs and the bug that are told of
it. -/
lemma addsUp_finish (x : Explorer σ S) (e : Execution σ S) (reached : Bool) :
    x.AddsUp [⟨(x.finish e reached).1, (x.finish e reached).2⟩] (x.finish e reached).2 := by
  have pairs := x.coverage.count_update e.observer.coverage
  have hits := x.coverage.total.hitsAt_merge e.observer.coverage
  rw [finish]
  -- Whether it is the program or the bound that makes the bug does not matter to the counts.
  generalize (if reached && x.config.failOnMaxSteps then
    some (boundMessage (Scheduler.scheduledSteps e.strategy)) else e.bug) = bug
  exact {
    config := by cases bug <;> rfl
    stopRequested := by cases bug <;> rfl
    iterations := by cases bug <;> rfl
    coverageRuns := by cases bug <;> rfl
    totalSteps := by cases bug <;> exact congrArg (x.totalSteps + ·) (add_zero _).symm
    pairs := by cases bug <;> exact pairs
    hits := by cases bug <;> exact hits
    numbers := congrArg (fun n => [n]) (add_zero x.iterationsCompleted).symm
    bugs := by
      cases bug with
      | none => exact (List.append_nil _).symm
      | some message =>
        show (Array.push x.bugs.bugs _).toList = _ ++ BugLog.number x.bugs.nextId [_]
        rw [Array.toList_push, BugLog.number_singleton]
        rfl
    nextId := by
      cases bug with
      | none => exact (add_zero _).symm
      | some message => rfl }

/-- A run that comes to its end is counted, and one that fails is not. -/
lemma addsUp_runIteration (fuel : Nat) (x : Explorer σ S) :
    x.AddsUp (x.runs fuel 1) (x.runIteration fuel).2 := by
  rw [runs, runIteration]
  generalize x.nextExecution.run x.program fuel = ended
  obtain ⟨ending, e⟩ := ended
  cases ending with
  | quiet => exact addsUp_finish x e false
  | bug => exact addsUp_finish x e false
  | bound => exact addsUp_finish x e true
  | failed error => exact .setExecution x e
  | unfinished => exact .setExecution x e

lemma addsUp_of_ok {row : IterationReport} (ran : x.runIteration fuel = (.ok row, y)) :
    x.AddsUp [⟨row, y⟩] y := by
  have counted := addsUp_runIteration fuel x
  rwa [runs_succ_of_ok ran, ran] at counted

lemma addsUp_of_error {error : ExploreError} (ran : x.runIteration fuel = (.error error, y)) :
    x.AddsUp [] y := by
  have counted := addsUp_runIteration fuel x
  rwa [runs_succ_of_error ran, ran] at counted

/-- However the runs of a session come to their end, each of them has been counted. -/
lemma Proceeds.addsUp (h : Proceeds fuel left x made result z) : x.AddsUp made z := by
  induction h with
  | spent | stopped | timedOut => exact .refl _
  | failed ran => exact addsUp_of_error ran
  | bugFound ran | last ran => exact addsUp_of_ok ran
  | exhausted ran => exact (addsUp_of_ok ran).trans (.prepare _)
  | next ran _ _ _ ih => exact (addsUp_of_ok ran).trans ((AddsUp.prepare _).trans ih)

/-- What a report tells of is what the session has counted. -/
lemma addsUp_explore {store : FileStore (StateM ω)} {elapsed : StateM ω Nat} {w : ω} {report : Report}
    (ended : (x.explore store fuel elapsed w).1 = (.ok report, z)) :
    (x.runs fuel report.rows.length).length = report.rows.length ∧
      x.AddsUp (x.runs fuel report.rows.length) z := by
  obtain ⟨made, result, z', nanos, proceeds, eq⟩ := proceeds_explore store fuel elapsed x w
  rw [ended] at eq
  cases result with
  | error => cases eq
  | ok reason =>
    cases eq
    have rows : (z.report (made.map (·.row)).toArray reason nanos).rows.length = made.length :=
      List.length_map _
    rw [rows, proceeds.runs_eq]
    exact ⟨rfl, proceeds.addsUp⟩

lemma AddsUp.stopsAfter (h : x.AddsUp made z) (row : IterationReport) :
    z.stopsAfter row = x.stopsAfter row := by
  rw [Explorer.stopsAfter, Explorer.stopsAfter, h.config]

/-- Why a session makes no more runs after `before` and `last`, where it may make so many. -/
structure EndsAfter (x : Explorer σ S) (limit : Nat) (before : List (FinishedRun σ S))
    (last : FinishedRun σ S) (reason : StopReason) : Prop where
  goesOn : ∀ run ∈ before, x.stopsAfter run.row = false ∧ run.session.prepare.1 = true
  lt : before.length < limit
  bugFound : reason = .bugFound ↔ x.stopsAfter last.row = true
  strategyExhausted : reason = .strategyExhausted ↔
    x.stopsAfter last.row = false ∧ before.length + 1 < limit ∧ last.session.prepare.1 = false
  iterationsExhausted : reason = .iterationsExhausted ↔
    x.stopsAfter last.row = false ∧ before.length + 1 = limit

/-- Without a limit of time and a wish to stop, a session ends after some run, and for a reason that
has to do with that run. -/
lemma Proceeds.endsAfter {reason : StopReason} (h : Proceeds fuel left x made (.ok reason) z)
    (some : 0 < left) (unlimited : x.config.timeoutSecs = none) (going : x.stopRequested = false) :
    ∃ before last, made = before ++ [last] ∧ x.EndsAfter left before last reason := by
  generalize e : Except.ok reason = result at h
  induction h with
  | spent => exact absurd some (Nat.lt_irrefl 0)
  | stopped stop =>
    rw [going] at stop
    cases stop
  | timedOut limited =>
    rw [unlimited] at limited
    cases limited
  | failed => cases e
  | @bugFound x y left row ran stops =>
    cases e
    rw [(addsUp_of_ok ran).stopsAfter] at stops
    exact ⟨[], ⟨row, y⟩, rfl, List.forall_mem_nil _, some, by simp [stops], by simp [stops],
      by simp [stops]⟩
  | @last x y row ran goes =>
    cases e
    rw [(addsUp_of_ok ran).stopsAfter] at goes
    exact ⟨[], ⟨row, y⟩, rfl, List.forall_mem_nil _, some, by simp [goes], by simp,
      by simp [goes]⟩
  | @exhausted x y left row ran goes spent =>
    cases e
    rw [(addsUp_of_ok ran).stopsAfter] at goes
    exact ⟨[], ⟨row, y⟩, rfl, List.forall_mem_nil _, some, by simp [goes], by simp [goes, spent],
      by simp⟩
  | @next x y z left row rest result ran goes more _ ih =>
    -- The rest is said of the session after the run, whose settings are those of `x`.
    have counted := (addsUp_of_ok ran).trans (.prepare y)
    obtain ⟨before, last, rfl, ends⟩ := ih (Nat.succ_pos left) (counted.config ▸ unlimited)
      (counted.stopRequested.trans going) e
    rw [(addsUp_of_ok ran).stopsAfter] at goes
    refine ⟨⟨row, y⟩ :: before, last, rfl, ?_, Nat.succ_lt_succ ends.lt, ?_, ?_, ?_⟩
    · rintro run (_ | ⟨_, mem⟩)
      · exact ⟨goes, more⟩
      · exact counted.stopsAfter run.row ▸ ends.goesOn run mem
    · exact counted.stopsAfter last.row ▸ ends.bugFound
    · have longer : before.length + 1 + 1 < left + 2 ↔ before.length + 1 < left + 1 :=
        Nat.succ_lt_succ_iff
      rw [ends.strategyExhausted, counted.stopsAfter, List.length_cons, longer]
    · have longer : before.length + 1 + 1 = left + 2 ↔ before.length + 1 = left + 1 :=
        Nat.succ_inj
      rw [ends.iterationsExhausted, counted.stopsAfter, List.length_cons, longer]

/-- The sessions that there are: started, gone on with from what is kept of another, and at any point
between their runs. -/
inductive Reachable : ∀ {σ S : Type} [Scheduler S], Explorer σ S → Prop where
  | new {σ : Type} {config : Config} {program : Program σ} {x : Explorer σ Strategy} :
    Explorer.new config program = .ok x → Reachable x
  | withStrategy {σ S : Type} [Scheduler S] {config : Config} {program : Program σ} {strategy : S}
      {x : Explorer σ S} :
    Explorer.withStrategy config program strategy = .ok x → Reachable x
  | forReplay {σ : Type} {config : Config} {program : Program σ} {trace : Trace}
      {x : Explorer σ Strategy} :
    Explorer.forReplay config program trace = .ok x → Reachable x
  | ofCheckpoint {σ σ' S : Type} [Scheduler S] {x : Explorer σ S} {program : Program σ'}
      {iterations : Option UInt64} {y : Explorer σ' Strategy} :
    Reachable x → Explorer.ofCheckpoint x.checkpoint program iterations = .ok y → Reachable y
  | explore {σ S ω : Type} [Scheduler S] {x : Explorer σ S} (store : FileStore (StateM ω))
      (fuel : Nat) (elapsed : StateM ω Nat) (w : ω) :
    Reachable x → Reachable (x.explore store fuel elapsed w).1.2
  | runIteration {σ S : Type} [Scheduler S] {x : Explorer σ S} (fuel : Nat) :
    Reachable x → Reachable (x.runIteration fuel).2
  | prepare {σ S : Type} [Scheduler S] {x : Explorer σ S} : Reachable x → Reachable x.prepare.2
  | requestStop {σ S : Type} [Scheduler S] {x : Explorer σ S} (stop : Bool) :
    Reachable x → Reachable { x with stopRequested := stop }

/-- A session may make a run, and its bugs are numbered. -/
structure IsSound (x : Explorer σ S) : Prop where
  iterations : 0 < x.config.iterations.toNat
  bugs : x.bugs.Numbered

lemma AddsUp.isSound (h : x.AddsUp made z) (sound : x.IsSound) : z.IsSound where
  iterations := h.config ▸ sound.iterations
  bugs := sound.bugs.append h.bugs h.nextId

lemma iterations_pos {config : Config} (valid : config.validate = .ok ()) :
    0 < config.iterations.toNat := by
  refine Nat.pos_of_ne_zero fun zero => ?_
  have none : config.iterations = 0 := UInt64.toNat_inj.mp zero
  rw [Config.validate, if_pos none] at valid
  cases valid

lemma Reachable.isSound (reached : x.Reachable) : x.IsSound := by
  induction reached with
  | new started =>
    obtain ⟨matcher, strategy, valid, -, -, rfl⟩ := eq_start_of_new started
    exact ⟨iterations_pos valid, BugLog.numbered_empty⟩
  | withStrategy started | forReplay started =>
    obtain ⟨matcher, valid, -, rfl⟩ := eq_start_of_withStrategy started
    exact ⟨iterations_pos valid, BugLog.numbered_empty⟩
  | ofCheckpoint _ resumed ih =>
    obtain ⟨config, matcher, strategy, -, valid, -, -, rfl⟩ := eq_start_of_ofCheckpoint resumed
    exact ⟨iterations_pos valid, ih.bugs.ofReports⟩
  | @explore _ _ _ _ x store fuel elapsed w _ ih =>
    obtain ⟨made, result, z, nanos, proceeds, eq⟩ := proceeds_explore store fuel elapsed x w
    rw [eq]
    exact proceeds.addsUp.isSound ih
  | @runIteration _ _ _ x fuel _ ih => exact (addsUp_runIteration fuel x).isSound ih
  | @prepare _ _ _ x _ ih => exact (AddsUp.prepare x).isSound ih
  | requestStop stop _ ih => exact ⟨ih.iterations, ih.bugs⟩

/-- A session that is explored without a limit of time and without a wish to stop either reports a run
or more, or fails in a run. In both cases the runs that came to their end before are all counted, and
nothing else is. The bugs have numbers of their own as long as there are numbers. -/
theorem account_of_explore (reached : x.Reachable) (unlimited : x.config.timeoutSecs = none)
    (going : x.stopRequested = false) (store : FileStore (StateM ω)) (fuel : Nat)
    (elapsed : StateM ω Nat) (w : ω) :
    match (x.explore store fuel elapsed w).1 with
    | (.ok report, z) => ∃ before last,
      x.runs fuel report.rows.length = before ++ [last] ∧
      report.rows = (before ++ [last]).map (·.row) ∧
      report = z.report report.rows.toArray report.stopReason report.elapsedNanos ∧
      x.EndsAfter x.config.iterations.toNat before last report.stopReason ∧
      x.AddsUp (before ++ [last]) z ∧
      (z.bugs.bugs.size ≤ 2 ^ 64 → (z.bugs.bugs.toList.map (·.bugId)).Nodup)
    | (.error _, z) => ∃ made,
      made.length < x.config.iterations.toNat ∧
      x.runs fuel (made.length + 1) = made ∧
      x.AddsUp made z := by
  have sound := reached.isSound
  obtain ⟨made, result, z, nanos, proceeds, eq⟩ := proceeds_explore store fuel elapsed x w
  have counted := proceeds.addsUp
  rw [eq]
  cases result with
  | error error =>
    obtain ⟨lt, runs⟩ := proceeds.runs_eq_of_error
    exact ⟨made, lt, runs, counted⟩
  | ok reason =>
    obtain ⟨before, last, rfl, ends⟩ := proceeds.endsAfter sound.iterations unlimited going
    have runs : x.runs fuel ((before ++ [last]).map (·.row)).length = before ++ [last] := by
      rw [List.length_map]
      exact proceeds.runs_eq
    exact ⟨before, last, runs, rfl, rfl, ends, counted, (counted.isSound sound).bugs.nodup⟩

/-- Two clients that race for a register in each of two runs: both runs are counted, and no more. -/
theorem account_of_two_races :
    let config := { Config.standard with iterations := 2, fullExploration := true }
    let x := start config (RegisterRace.program 2) none (config.renewing .random)
    let store : FileStore (StateM Unit) := ⟨fun _ => pure (.error .notFound), fun _ _ => pure (.ok ()),
      fun _ => pure (.ok ()), fun _ => pure false⟩
    x.Reachable ∧ ∃ report z, (x.explore store 30 (pure 0) ()).1 = (.ok report, z) ∧
      report.rows.length = 2 ∧ z.iterationsCompleted = 2 ∧
      z.totalSteps = (report.rows.map (·.steps)).sum := by
  intro config x store
  have started : Explorer.new config (RegisterRace.program 2) = .ok x := rfl
  have reached : x.Reachable := .new started
  have two : (x.explore store 30 (pure 0) ()).1.1.toOption.map (·.rows.length) = some 2 := by
    decide +kernel
  have account := account_of_explore reached rfl rfl store 30 (pure 0) ()
  refine ⟨reached, ?_⟩
  generalize (x.explore store 30 (pure 0) ()).1 = ended at two account
  obtain ⟨error | report, z⟩ := ended
  · cases two
  have two : report.rows.length = 2 := Option.some.inj two
  obtain ⟨before, last, -, rows, -, -, counted, -⟩ := account
  refine ⟨report, z, rfl, two, ?_, ?_⟩
  · have length : (before ++ [last]).length = 2 := by rw [← two, rows, List.length_map]
    rw [counted.iterations, length]
    rfl
  · rw [counted.totalSteps, rows, List.map_map]
    exact zero_add _

end Explorer

end Interleaving
