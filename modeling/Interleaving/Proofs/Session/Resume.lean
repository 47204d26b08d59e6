import Mathlib
import Interleaving.Proofs.Session.Accounts

/-!
# Sessions that go on from another

A session that goes on from a checkpoint counts on as if it were the session that the checkpoint was
made of (`Explorer.HasCounted.ofCheckpoint`). So at the end of a series of sessions, each of which goes
on from the one before, the last has counted the runs of them all, and no two have drawn their
schedules from one seed (`Series.accumulates`).
-/

namespace Interleaving

lemma pairwise_lt_countFrom {n : Nat} (fits : n ≤ 2 ^ 64) : (countFrom 0 n).Pairwise (· < ·) := by
  refine List.pairwise_map.mpr (List.pairwise_lt_range.imp_of_mem fun {i j} _ mem lt => ?_)
  have small : j < 2 ^ 64 := Nat.lt_of_lt_of_le (List.mem_range.mp mem) fits
  rw [zero_add, zero_add, UInt64.lt_iff_toNat_lt, UInt64.toNat_ofNat_of_lt' (Nat.lt_trans lt small),
    UInt64.toNat_ofNat_of_lt' small]
  exact lt

/-- The numbers of the runs that showed a bug are among those of all runs, in the same order. -/
lemma FinishedRun.sublist_iteration {σ S : Type} [Scheduler S] (made : List (FinishedRun σ S)) :
    ((made.filterMap (·.bug?)).map (·.iteration)).Sublist (made.map (·.row.iteration)) := by
  induction made with
  | nil => exact .slnil
  | cons run made ih =>
    cases bug : run.row.bug with
    | none =>
      rw [List.filterMap_cons_none (by rw [bug?, bug]; rfl)]
      exact ih.cons _
    | some message =>
      rw [List.filterMap_cons_some (by rw [bug?, bug]; rfl)]
      exact ih.cons_cons _

namespace Explorer

variable {σ S : Type} [Scheduler S] {x z : Explorer σ S} {all made : List (FinishedRun σ S)}

/-- A session has counted these runs, its own and those of the sessions before it, and nothing else. -/
structure HasCounted (all : List (FinishedRun σ S)) (z : Explorer σ S) : Prop where
  iterations : z.iterationsCompleted = .ofNat all.length
  coverageRuns : z.coverage.runs = .ofNat all.length
  totalSteps : z.totalSteps = (all.map (·.row.steps)).sum
  hits : ∀ key, z.coverage.total.hitsAt key = (all.map (·.coverage.hitsAt key)).foldl max 0
  numbers : all.map (·.row.iteration) = countFrom 0 all.length
  bugIterations :
    z.bugs.bugs.toList.map (·.iteration) = (all.filterMap (·.bug?)).map (·.iteration)
  bugs : z.bugs.Numbered

namespace HasCounted

lemma start (config : Config) (program : Program σ) (matcher : Option Matcher) (strategy : S) :
    (start config program matcher strategy).HasCounted [] where
  iterations := rfl
  coverageRuns := rfl
  totalSteps := rfl
  hits _ := rfl
  numbers := rfl
  bugIterations := rfl
  bugs := BugLog.numbered_empty

/-- The runs that a session makes are counted with those before. -/
lemma addsUp (h : x.HasCounted all) (counted : x.AddsUp made z) : z.HasCounted (all ++ made) where
  iterations := by
    rw [counted.iterations, h.iterations, List.length_append, UInt64.ofNat_add]
  coverageRuns := by
    rw [counted.coverageRuns, h.coverageRuns, List.length_append, UInt64.ofNat_add]
  totalSteps := by
    rw [counted.totalSteps, h.totalSteps, List.map_append, List.sum_append]
  hits key := by
    rw [counted.hits, h.hits, List.map_append, List.foldl_append]
  numbers := by
    rw [List.map_append, h.numbers, counted.numbers, h.iterations, List.length_append, countFrom_add,
      zero_add]
  bugIterations := by
    rw [counted.bugs, List.map_append, h.bugIterations, BugLog.map_iteration_number,
      List.filterMap_append, List.map_append]
  bugs := h.bugs.append counted.bugs counted.nextId

/-- What is kept in a checkpoint is all that has been counted. -/
lemma ofCheckpoint {x y : Explorer σ Strategy} {all : List (FinishedRun σ Strategy)}
    (h : x.HasCounted all) {program : Program σ} {iterations : Option UInt64}
    (resumed : Explorer.ofCheckpoint x.checkpoint program iterations = .ok y) : y.HasCounted all := by
  obtain ⟨config, matcher, strategy, -, -, -, -, rfl⟩ := eq_start_of_ofCheckpoint resumed
  exact {
    iterations := h.iterations
    coverageRuns := h.iterations
    totalSteps := h.totalSteps
    hits := h.hits
    numbers := h.numbers
    bugIterations := h.bugIterations
    bugs := h.bugs.ofReports }

/-- No two bugs were shown by the same run, as long as the runs have different numbers. -/
lemma pairwise_iteration (h : z.HasCounted all) (fits : all.length ≤ 2 ^ 64) :
    (z.bugs.bugs.toList.map (·.iteration)).Pairwise (· < ·) := by
  rw [h.bugIterations]
  refine List.Pairwise.sublist (FinishedRun.sublist_iteration all) ?_
  rw [h.numbers]
  exact pairwise_lt_countFrom fits

end HasCounted

end Explorer

/-- A session from its start to its end, with the seed of its strategy and the runs that it made. -/
structure Session (σ : Type) where
  seed : UInt64
  first : Explorer σ Strategy
  made : List (FinishedRun σ Strategy)
  last : Explorer σ Strategy

namespace Session

variable {σ : Type} {config : Config} {s t : Session σ} {earlier : List (Session σ)}

/-- The session was explored, and reported a run or more. -/
def IsExplored (s : Session σ) : Prop :=
  ∃ (ω : Type) (store : FileStore (StateM ω)) (fuel : Nat) (elapsed : StateM ω Nat) (w : ω)
    (report : Report), (s.first.explore store fuel elapsed w).1 = (.ok report, s.last) ∧
      report.rows ≠ [] ∧ s.made = s.first.runs fuel report.rows.length

/-- A series of sessions, the last one first. The first one starts under some settings, and each of the
others goes on from what is kept of the one before. -/
inductive Series (config : Config) : List (Session σ) → Prop where
  | new {program : Program σ} {s : Session σ} :
    Explorer.new config program = .ok s.first → s.seed = config.seed → s.IsExplored →
    Series config [s]
  | resume {program : Program σ} {iterations : Option UInt64} {s t : Session σ}
      {earlier : List (Session σ)} :
    Series config (s :: earlier) →
    Explorer.ofCheckpoint s.last.checkpoint program iterations = .ok t.first →
    t.seed = s.last.checkpoint.resumeSeed → t.IsExplored → Series config (t :: s :: earlier)

/-- The runs of all sessions of a series, in the order in which they were made. -/
def allMade : List (Session σ) → List (FinishedRun σ Strategy)
  | [] => []
  | s :: earlier => allMade earlier ++ s.made

lemma length_allMade_cons (s : Session σ) (earlier : List (Session σ)) :
    (allMade (s :: earlier)).length = (allMade earlier).length + s.made.length :=
  List.length_append

/-- The strategy of the session is the one that its settings ask for under its seed. -/
def IsSeeded (s : Session σ) : Prop :=
  ∃ matcher, s.first.config.compilePattern = .ok matcher ∧
    { s.first.config with seed := s.seed }.buildStrategy matcher =
      .ok s.first.execution.strategy

/-- A session that is explored counts its runs, of which there are some. -/
lemma IsExplored.addsUp (h : s.IsExplored) :
    0 < s.made.length ∧ s.first.AddsUp s.made s.last := by
  obtain ⟨ω, store, fuel, elapsed, w, report, ended, some, made⟩ := h
  obtain ⟨length, counted⟩ := Explorer.addsUp_explore ended
  have pos := List.length_pos_of_ne_nil some
  rw [← length] at pos
  exact ⟨made ▸ pos, made ▸ counted⟩

/-- A session that reports a number of runs is one that was explored. -/
lemma exists_isExplored {ω : Type} {x : Explorer σ Strategy} {store : FileStore (StateM ω)}
    {fuel : Nat} {elapsed : StateM ω Nat} {w : ω} {n : Nat} (seed : UInt64)
    (told : (x.explore store fuel elapsed w).1.1.toOption.map (·.rows.length) = some (n + 1)) :
    ∃ s : Session σ, s.seed = seed ∧ s.first = x ∧
      s.last = (x.explore store fuel elapsed w).1.2 ∧ s.IsExplored ∧ s.made.length = n + 1 := by
  generalize ended : (x.explore store fuel elapsed w).1 = answer at told ⊢
  obtain ⟨error | report, z⟩ := answer
  · cases told
  have told : report.rows.length = n + 1 := Option.some.inj told
  have some : report.rows ≠ [] := List.ne_nil_of_length_pos (told ▸ Nat.succ_pos n)
  exact ⟨⟨seed, x, x.runs fuel report.rows.length, z⟩, rfl, rfl, rfl,
    ⟨ω, store, fuel, elapsed, w, report, ended, some, rfl⟩,
    (Explorer.addsUp_explore ended).1.trans told⟩

namespace Series

variable {sessions : List (Session σ)}

/-- The last session has counted the runs of all. -/
lemma hasCounted (series : Series config sessions) :
    ∀ s ∈ sessions.head?, s.last.HasCounted (allMade sessions) := by
  induction series with
  | new started _ explored =>
    rintro _ ⟨⟩
    obtain ⟨matcher, strategy, -, -, -, eq⟩ := Explorer.eq_start_of_new started
    exact (eq ▸ Explorer.HasCounted.start ..).addsUp explored.addsUp.2
  | resume _ resumed _ explored ih =>
    rintro _ ⟨⟩
    exact ((ih _ rfl).ofCheckpoint resumed).addsUp explored.addsUp.2

/-- The bugs of a session stand at the head of those of every later one. -/
lemma pairwise_bugs (series : Series config sessions) :
    sessions.Pairwise fun later earlier =>
      earlier.last.bugs.bugs.toList <+: later.last.bugs.bugs.toList := by
  induction series with
  | new => exact List.pairwise_singleton ..
  | @resume program iterations s t earlier _ resumed _ explored ih =>
    obtain ⟨_, _, _, -, -, -, -, eq⟩ := Explorer.eq_start_of_ofCheckpoint resumed
    have next : s.last.bugs.bugs.toList <+: t.last.bugs.bugs.toList := by
      rw [explored.addsUp.2.bugs, eq]
      exact List.prefix_append ..
    refine List.pairwise_cons.mpr ⟨fun u mem => ?_, ih⟩
    obtain rfl | mem := List.mem_cons.mp mem
    · exact next
    · exact (List.rel_of_pairwise_cons ih mem).trans next

/-- The settings of the last session have the seed of the series. -/
lemma config_seed (series : Series config sessions) :
    ∀ s ∈ sessions.head?, s.last.config.seed = config.seed := by
  induction series with
  | new started _ explored =>
    rintro _ ⟨⟩
    obtain ⟨matcher, strategy, -, -, -, eq⟩ := Explorer.eq_start_of_new started
    rw [explored.addsUp.2.config, eq]
    rfl
  | resume _ resumed _ explored ih =>
    rintro _ ⟨⟩
    obtain ⟨_, _, _, rfl, -, -, -, eq⟩ := Explorer.eq_start_of_ofCheckpoint resumed
    rw [explored.addsUp.2.config, eq]
    exact ih _ rfl

/-- The seed of a session that goes on is moved by the number of runs before it. -/
lemma seed_of_resume (series : Series config (s :: earlier))
    (seeded : t.seed = s.last.checkpoint.resumeSeed) :
    t.seed = config.seed + .ofNat (allMade (s :: earlier)).length := by
  rw [seeded, ← series.config_seed s rfl, ← (series.hasCounted s rfl).iterations]
  rfl

/-- The seed of each session is that of the settings, moved by the number of runs before it. -/
lemma exists_seed_eq (series : Series config sessions) :
    ∀ s ∈ sessions, ∃ n < (allMade sessions).length, s.seed = config.seed + .ofNat n := by
  induction series with
  | new started seeded explored =>
    intro s mem
    cases List.mem_singleton.mp mem
    exact ⟨0, explored.addsUp.1, seeded.trans (add_zero _).symm⟩
  | @resume program iterations s t earlier series _ seeded explored ih =>
    have longer : (allMade (s :: earlier)).length < (allMade (t :: s :: earlier)).length := by
      rw [length_allMade_cons t]
      exact Nat.lt_add_of_pos_right explored.addsUp.1
    intro u mem
    obtain rfl | mem := List.mem_cons.mp mem
    · exact ⟨_, longer, series.seed_of_resume seeded⟩
    · obtain ⟨n, lt, eq⟩ := ih u mem
      exact ⟨n, Nat.lt_trans lt longer, eq⟩

lemma nodup_seeds (series : Series config sessions) (fits : (allMade sessions).length < 2 ^ 64) :
    (sessions.map (·.seed)).Nodup := by
  induction series with
  | new => exact List.nodup_singleton _
  | @resume program iterations s t earlier series _ seeded explored ih =>
    have fits : (allMade (s :: earlier)).length < 2 ^ 64 := by
      rw [length_allMade_cons] at fits
      exact Nat.lt_of_le_of_lt (Nat.le_add_right _ _) fits
    -- An earlier session had fewer runs before it, as each session makes one at least.
    refine List.nodup_cons.mpr ⟨fun mem => ?_, ih fits⟩
    obtain ⟨u, mem, same⟩ := List.mem_map.mp mem
    obtain ⟨n, lt, eq⟩ := series.exists_seed_eq u mem
    have same : u.seed = t.seed := same
    rw [eq, series.seed_of_resume seeded] at same
    have same := congrArg UInt64.toNat (add_left_cancel same)
    rw [UInt64.toNat_ofNat_of_lt' (Nat.lt_trans lt fits), UInt64.toNat_ofNat_of_lt' fits] at same
    exact Nat.ne_of_lt lt same

/-- Each session drew its schedules from its own seed. -/
lemma isSeeded (series : Series config sessions) : ∀ s ∈ sessions, s.IsSeeded := by
  induction series with
  | new started seeded _ =>
    intro s mem
    cases List.mem_singleton.mp mem
    obtain ⟨matcher, strategy, -, compiled, built, eq⟩ := Explorer.eq_start_of_new started
    rw [IsSeeded, eq, seeded]
    exact ⟨matcher, compiled, built⟩
  | resume _ resumed seeded _ ih =>
    intro u mem
    obtain rfl | mem := List.mem_cons.mp mem
    · obtain ⟨_, matcher, _, -, -, compiled, built, eq⟩ :=
        Explorer.eq_start_of_ofCheckpoint resumed
      rw [IsSeeded, eq, seeded]
      exact ⟨matcher, compiled, built⟩
    · exact ih u mem

/-- At the end of a series of sessions, the bugs of each stand at the head of those of the next, and the
last session has counted the runs of all: how many there were, how many steps they had, and for each
pair the largest count in any of them. As long as there are numbers, bugs have numbers of their own, the
runs that showed them are numbered in their order, and no two sessions had the same seed. -/
theorem accumulates (series : Series config (s :: earlier)) :
    ((s :: earlier).Pairwise fun later earlier =>
      earlier.last.bugs.bugs.toList <+: later.last.bugs.bugs.toList) ∧
    s.last.iterationsCompleted = .ofNat (allMade (s :: earlier)).length ∧
    s.last.coverage.runs = .ofNat (allMade (s :: earlier)).length ∧
    s.last.totalSteps = ((allMade (s :: earlier)).map (·.row.steps)).sum ∧
    (∀ key, s.last.coverage.total.hitsAt key =
      ((allMade (s :: earlier)).map (·.coverage.hitsAt key)).foldl max 0) ∧
    (s.last.bugs.bugs.size ≤ 2 ^ 64 → (s.last.bugs.bugs.toList.map (·.bugId)).Nodup) ∧
    ((allMade (s :: earlier)).length ≤ 2 ^ 64 →
      (s.last.bugs.bugs.toList.map (·.iteration)).Pairwise (· < ·)) ∧
    ((allMade (s :: earlier)).length < 2 ^ 64 → ((s :: earlier).map (·.seed)).Nodup) ∧
    ∀ t ∈ s :: earlier, t.IsSeeded := by
  have counted := series.hasCounted s rfl
  exact ⟨series.pairwise_bugs, counted.iterations, counted.coverageRuns, counted.totalSteps,
    counted.hits, counted.bugs.nodup, counted.pairwise_iteration, series.nodup_seeds,
    series.isSeeded⟩

/-- A session of two clients that race for a register, and one that goes on from it with two more runs:
three runs are counted, and the seeds differ. -/
theorem accumulates_of_two_sessions :
    let config := { Config.standard with fullExploration := true }
    ∃ s t : Session RegisterRace.State, Series config [t, s] ∧
      t.last.iterationsCompleted = 3 ∧ t.seed ≠ s.seed := by
  intro config
  let x := Explorer.start config (RegisterRace.program 2) none (config.renewing .random)
  let store : FileStore (StateM Unit) := ⟨fun _ => pure (.error .notFound), fun _ _ => pure (.ok ()),
    fun _ => pure (.ok ()), fun _ => pure false⟩
  let explore (x : Explorer RegisterRace.State Strategy) :=
    (x.explore store 30 (pure 0 : StateM Unit Nat) ()).1
  have started : Explorer.new config (RegisterRace.program 2) = .ok x := rfl
  have one : (explore x).1.toOption.map (·.rows.length) = some 1 := by decide +kernel
  have two : ((Explorer.ofCheckpoint (explore x).2.checkpoint (RegisterRace.program 2)
      (some 2)).toOption.bind fun y => (explore y).1.toOption.map (·.rows.length)) = some 2 := by
    decide +kernel
  -- The sessions themselves are too large to write down: that they report so many runs is enough.
  obtain ⟨s, seed, first, last, explored, made⟩ := exists_isExplored config.seed one
  cases resumed : Explorer.ofCheckpoint (explore x).2.checkpoint (RegisterRace.program 2) (some 2) with
  | error error =>
    rw [resumed] at two
    cases two
  | ok y =>
    rw [resumed] at two
    obtain ⟨t, seed', first', -, explored', made'⟩ :=
      exists_isExplored (explore x).2.checkpoint.resumeSeed two
    have series : Series config [t, s] :=
      .resume (.new (first ▸ started) seed explored) (last ▸ first' ▸ resumed) (last ▸ seed')
        explored'
    have total : (allMade [t, s]).length = 3 := by
      rw [length_allMade_cons, length_allMade_cons, made, made']
      rfl
    obtain ⟨-, iterations, -, -, -, -, -, seeds, -⟩ := accumulates series
    refine ⟨s, t, series, by rw [iterations, total]; rfl, fun same => ?_⟩
    have fresh := (List.nodup_cons.mp (seeds (by rw [total]; decide))).1
    exact fresh (List.mem_singleton.mpr same)

end Series

end Session

end Interleaving
