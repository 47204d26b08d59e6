import Mathlib
import Interleaving.Proofs.Strategy.TwoStage

/-!
# Rotation of the corpus

As long as nothing is saved, a search by feedback takes the entries of its corpus in turn, each for as
many runs as its budget of mutations allows, and in two stages it mutates the inputs in every fifth of
these runs and the schedule in the others (`FeedbackStrategy.current_in_rotation`).

The counts of a strategy are compared when it gets ready for a run, after it may have gone on to the next
entry. There they are the quotient and the remainder of the number of runs by the budget (`Turned`).
-/

namespace Interleaving

open Call

/-- The strategy after the run, before it gets ready for the next one. -/
def Iteration.finish {S : Type} [Scheduler S] (s : S) (r : Iteration) : S :=
  Scheduler.observe (r.requests.foldl Request.serve s) r.summary

namespace FeedbackStrategy

variable {saved s : FeedbackStrategy} {n : Nat}

/-- After so many runs in a row none of which was saved, the strategy is to get ready for another. -/
inductive Idles (saved : FeedbackStrategy) : Nat → FeedbackStrategy → Prop where
  | saved : Idles saved 0 saved
  | run {n : Nat} {s : FeedbackStrategy} (r : Iteration) :
    Idles saved n s →
    (r.finish (Scheduler.prepare s).2).corpus.size = s.corpus.size →
    Idles saved (n + 1) (r.finish (Scheduler.prepare s).2)

/-- What the `n`-th run after a save is made of, given the entry that it is derived from. -/
def mutant (mode : FeedbackMode) (budget n : Nat) (base : RunGenerator) (rng : Rng) : RunGenerator :=
  match mode with
  | .oneStage => (base.mutateBoth rng).1
  | .twoStage =>
    if 0 < n % budget ∧ twoStageThreshold ∣ n % budget then (base.mutateInput rng).1
    else (base.mutateSchedule rng).1

section Places

lemma exists_serve_eq (q : Request) : ∃ current steps branching, q.serve s =
    { s with current := current, scheduledSteps := steps, branching := branching } := by
  cases q with
  | operation ops =>
    simp only [Request.serve, Scheduler.nextOperation]
    split
    · exact ⟨s.current, s.scheduledSteps, s.branching, rfl⟩
    · exact ⟨_, _, _, rfl⟩
  | bool maxValue => exact ⟨_, _, s.branching, rfl⟩
  | int maxValue => exact ⟨_, _, s.branching, rfl⟩

lemma exists_foldl_serve_eq (requests : List Request) :
    ∃ current steps branching, requests.foldl Request.serve s =
      { s with current := current, scheduledSteps := steps, branching := branching } := by
  induction requests generalizing s with
  | nil => exact ⟨s.current, s.scheduledSteps, s.branching, rfl⟩
  | cons q requests ih =>
    obtain ⟨_, _, _, served⟩ := exists_serve_eq (s := s) q
    obtain ⟨current, steps, branching, eq⟩ := ih (s := q.serve s)
    refine ⟨current, steps, branching, ?_⟩
    rw [List.foldl_cons, eq, served]

/-- The strategies that there can be, at any time and with any settings. -/
inductive Reachable : FeedbackStrategy → Prop where
  | ofKind (kind : ScheduleKind) (maxSteps : Nat) (fair : Bool) (seed : UInt64)
    (mode : FeedbackMode) (signal : FeedbackSignal) :
    Reachable (ofKind kind maxSteps fair seed mode signal)
  | withMaxMutations {s : FeedbackStrategy} (maxMutations : Nat) :
    Reachable s → Reachable (s.withMaxMutations maxMutations)
  | withMode {s : FeedbackStrategy} (mode : FeedbackMode) (signal : FeedbackSignal) :
    Reachable s → Reachable { s with mode := mode, signal := signal }
  | carryOut {s : FeedbackStrategy} (c : Call) : Reachable s → Reachable (c.carryOut s)

/-- The strategy allows an entry some mutations, and its place is one in the corpus if there is any. -/
structure IsPlaced (s : FeedbackStrategy) : Prop where
  budget : 0 < s.maxMutations
  index : s.currentInputIndex ≤ s.corpus.size - 1

lemma IsPlaced.rotate (h : s.IsPlaced) (nonempty : 0 < s.corpus.size) : s.rotate.IsPlaced := by
  rw [FeedbackStrategy.rotate]
  split
  · exact ⟨h.budget, Nat.le_sub_one_of_lt (Nat.mod_lt _ nonempty)⟩
  · exact h

lemma IsPlaced.nextGenerator (h : s.IsPlaced) : s.nextGenerator.IsPlaced := by
  rw [FeedbackStrategy.nextGenerator]
  split
  · exact ⟨h.budget, h.index⟩
  · next filled =>
    have nonempty : 0 < s.corpus.size :=
      Nat.pos_of_ne_zero fun none => filled (Array.isEmpty_iff_size_eq_zero.mpr none)
    have rotated := h.rotate nonempty
    dsimp only
    split
    · next base _ =>
      obtain ⟨_, _, _, eq⟩ := exists_derive_eq (s := s.rotate) base
      rw [eq]
      exact ⟨rotated.budget, rotated.index⟩
    · exact rotated

lemma IsPlaced.carryOut (h : s.IsPlaced) (c : Call) : (c.carryOut s).IsPlaced := by
  cases c with
  | request q =>
    obtain ⟨_, _, _, eq⟩ := exists_serve_eq (s := s) q
    simp only [Call.carryOut, eq]
    exact ⟨h.budget, h.index⟩
  | observe summary =>
    simp only [Call.carryOut, Scheduler.observe]
    split
    · refine ⟨h.budget, h.index.trans ?_⟩
      rw [Array.size_push]
      exact Nat.sub_le_sub_right (Nat.le_succ _) 1
    · exact ⟨h.budget, h.index⟩
  | prepare => exact ⟨h.nextGenerator.budget, h.nextGenerator.index⟩

lemma Reachable.isPlaced (h : s.Reachable) : s.IsPlaced := by
  induction h with
  | ofKind =>
    have positive : 0 < defaultMaxMutations := by decide
    exact ⟨positive, Nat.zero_le _⟩
  | withMaxMutations maxMutations h ih =>
    exact ⟨lt_of_lt_of_le Nat.zero_lt_one (le_max_right _ _), ih.index⟩
  | withMode mode signal h ih => exact ⟨ih.budget, ih.index⟩
  | carryOut c h ih => exact ih.carryOut c

end Places

section Turns

/-- The runs since the inputs were mutated, in the run of an entry that comes after `q` others. -/
def stale : Nat → Nat
  | 0 => 0
  | q + 1 => q % twoStageThreshold + 1

lemma threshold_le_stale_iff (q : Nat) :
    twoStageThreshold ≤ stale q ↔ 0 < q ∧ twoStageThreshold ∣ q := by
  cases q with
  | zero => simp [stale, twoStageThreshold]
  | succ q =>
    rw [stale, twoStageThreshold]
    omega

lemma stale_derived (q : Nat) :
    (if twoStageThreshold ≤ stale q then 0 else stale q) = q % twoStageThreshold := by
  cases q with
  | zero => rfl
  | succ q =>
    rw [stale, twoStageThreshold]
    split <;> omega

/-- One more run is one more with the same entry, or the first with the next one. -/
lemma succ_div_mod (n : Nat) {budget : Nat} (pos : 0 < budget) :
    (n + 1) / budget = n / budget + (if budget ≤ n % budget + 1 then 1 else 0) ∧
      (n + 1) % budget = if budget ≤ n % budget + 1 then 0 else n % budget + 1 := by
  have parts := Nat.div_add_mod n budget
  have lt := Nat.mod_lt n pos
  split
  · rw [Nat.div_mod_unique pos, Nat.mul_succ]
    omega
  · rw [Nat.div_mod_unique pos, Nat.add_zero (n / budget)]
    omega

/-- Where a strategy stands that is to get ready for the `n`-th run after a save, once it has gone on to
the next entry if it is to. -/
structure Turned (n : Nat) (saved s : FeedbackStrategy) : Prop where
  corpus : s.corpus = saved.corpus
  mode : s.mode = saved.mode
  budget : s.maxMutations = saved.maxMutations
  index : s.rotate.currentInputIndex =
    (saved.currentInputIndex + n / saved.maxMutations) % saved.corpus.size
  mutations : s.rotate.mutationsWithoutSave = n % saved.maxMutations
  stale : saved.mode = .twoStage → s.rotate.staleIterations = stale (n % saved.maxMutations)

lemma Turned.source (h : Turned n saved s) (nonempty : 0 < saved.corpus.size) :
    s.source = (saved.currentInputIndex + n / saved.maxMutations) % saved.corpus.size := by
  rw [FeedbackStrategy.source, h.index, h.corpus]
  exact Nat.min_eq_left (Nat.le_sub_one_of_lt (Nat.mod_lt _ nonempty))

lemma Turned.exists_entry (h : Turned n saved s) (nonempty : 0 < saved.corpus.size) :
    ∃ base, s.corpus[s.source]? = some base := by
  rw [h.source nonempty, h.corpus]
  exact ⟨_, Array.getElem?_eq_getElem (Nat.mod_lt _ nonempty)⟩

lemma Turned.current_prepare (h : Turned n saved s) {base : RunGenerator}
    (entry : s.corpus[s.source]? = some base) :
    (Scheduler.prepare s).2.current =
      (mutant saved.mode saved.maxMutations n base s.rng).startIteration
        (Scheduler.prepare s).2.scheduleLength := by
  obtain ⟨-, -, mode, rng⟩ := rotate_eq (s := s)
  simp only [Scheduler.prepare, nextGenerator_eq entry, derive, mode, h.mode, mutant]
  cases two : saved.mode with
  | oneStage => simp only [rng]
  | twoStage =>
    simp only [h.stale two, threshold_le_stale_iff]
    split <;> simp only [rng]

/-- Getting ready leaves the counts for the run to add to. -/
lemma Turned.exists_prepare_eq (h : Turned n saved s) (nonempty : 0 < saved.corpus.size) :
    ∃ current rng stale length, (Scheduler.prepare s).2 =
        { s.rotate with
          current := current
          rng := rng
          staleIterations := stale
          scheduleLength := length
          scheduledSteps := 0
          branching := #[] } ∧
      (saved.mode = .twoStage → stale = n % saved.maxMutations % twoStageThreshold) := by
  obtain ⟨base, entry⟩ := h.exists_entry nonempty
  obtain ⟨-, -, mode, -⟩ := rotate_eq (s := s)
  simp only [Scheduler.prepare, nextGenerator_eq entry, derive, mode, h.mode]
  cases two : saved.mode with
  | oneStage =>
    refine ⟨_, _, _, _, rfl, fun two => ?_⟩
    cases two
  | twoStage =>
    have counted := stale_derived (n % saved.maxMutations)
    rw [← h.stale two] at counted
    by_cases late : twoStageThreshold ≤ s.rotate.staleIterations
    · rw [if_pos late] at counted
      simp only [if_pos late]
      exact ⟨_, _, _, _, rfl, fun _ => counted⟩
    · rw [if_neg late] at counted
      simp only [if_neg late]
      exact ⟨_, _, _, _, rfl, fun _ => counted⟩

/-- A run that is not saved is counted. -/
lemma exists_finish_eq {r : Iteration} (kept : (r.finish s).corpus.size = s.corpus.size) :
    ∃ current steps branching novelty, r.finish s =
      { s with
        current := current
        scheduledSteps := steps
        branching := branching
        novelty := novelty
        mutationsWithoutSave := s.mutationsWithoutSave + 1
        staleIterations := s.staleIterations + 1 } := by
  obtain ⟨current, steps, branching, served⟩ := exists_foldl_serve_eq (s := s) r.requests
  simp only [Iteration.finish, served, Scheduler.observe] at kept ⊢
  split at kept
  · rw [Array.size_push] at kept
    exact absurd kept (Nat.succ_ne_self _)
  · next known =>
    rw [if_neg known]
    exact ⟨_, _, _, _, rfl⟩

lemma rotate_counts :
    s.rotate.maxMutations = s.maxMutations ∧
      s.rotate.currentInputIndex = (if s.maxMutations ≤ s.mutationsWithoutSave then
        (s.currentInputIndex + 1) % s.corpus.size else s.currentInputIndex) ∧
      s.rotate.mutationsWithoutSave =
        (if s.maxMutations ≤ s.mutationsWithoutSave then 0 else s.mutationsWithoutSave) ∧
      s.rotate.staleIterations =
        (if s.maxMutations ≤ s.mutationsWithoutSave then 0 else s.staleIterations) := by
  rw [rotate]
  split <;> exact ⟨rfl, rfl, rfl, rfl⟩

lemma Turned.run (h : Turned n saved s) (nonempty : 0 < saved.corpus.size)
    (pos : 0 < saved.maxMutations) {r : Iteration}
    (kept : (r.finish (Scheduler.prepare s).2).corpus.size = s.corpus.size) :
    Turned (n + 1) saved (r.finish (Scheduler.prepare s).2) := by
  obtain ⟨_, _, _, _, ready, counted⟩ := h.exists_prepare_eq nonempty
  have same : (Scheduler.prepare s).2.corpus = s.corpus := prepare_eq.1
  obtain ⟨_, _, _, _, finished⟩ := exists_finish_eq (kept.trans (congrArg Array.size same).symm)
  generalize r.finish (Scheduler.prepare s).2 = next at finished ⊢
  rw [ready] at finished
  have corpus : next.corpus = saved.corpus := by rw [finished, ← h.corpus]; exact rotate_eq.2.1
  have mode : next.mode = saved.mode := by rw [finished, ← h.mode]; exact rotate_eq.2.2.1
  have budget : next.maxMutations = saved.maxMutations := by
    rw [finished, ← h.budget]
    exact rotate_counts.1
  have index : next.currentInputIndex = _ := (congrArg (·.currentInputIndex) finished).trans h.index
  have mutations : next.mutationsWithoutSave = n % saved.maxMutations + 1 :=
    (congrArg (·.mutationsWithoutSave) finished).trans (congrArg (· + 1) h.mutations)
  have quiet (two : saved.mode = .twoStage) :
      next.staleIterations = n % saved.maxMutations % twoStageThreshold + 1 :=
    (congrArg (·.staleIterations) finished).trans (congrArg (· + 1) (counted two))
  -- The strategy goes on to the next entry when the number of runs gets to a multiple of the budget.
  obtain ⟨quotient, remainder⟩ := succ_div_mod n pos
  obtain ⟨-, index', mutations', stale'⟩ := rotate_counts (s := next)
  rw [budget, mutations, corpus, index] at index'
  rw [budget, mutations] at mutations' stale'
  refine ⟨corpus, mode, budget, ?_, mutations'.trans remainder.symm, fun two => ?_⟩
  · rw [index', quotient]
    split
    · rw [Nat.mod_add_mod, Nat.add_assoc]
    · rfl
  · rw [stale', remainder, quiet two]
    split <;> rfl

/-- After a save, all counts begin anew. -/
lemma turned_saved (pos : 0 < saved.maxMutations) (mutations : saved.mutationsWithoutSave = 0)
    (quiet : saved.staleIterations = 0) (index : saved.currentInputIndex < saved.corpus.size) :
    Turned 0 saved saved := by
  have fresh : ¬saved.maxMutations ≤ saved.mutationsWithoutSave := by
    rw [mutations]
    exact Nat.not_le.mpr pos
  obtain ⟨-, index', mutations', stale'⟩ := rotate_counts (s := saved)
  rw [if_neg fresh] at index' mutations' stale'
  refine ⟨rfl, rfl, rfl, ?_, ?_, fun _ => ?_⟩
  · rw [index', Nat.zero_div, Nat.add_zero, Nat.mod_eq_of_lt index]
  · rw [mutations', mutations, Nat.zero_mod]
  · rw [stale', quiet, Nat.zero_mod, stale]

lemma Idles.turned (idle : Idles saved n s) (start : Turned 0 saved saved)
    (nonempty : 0 < saved.corpus.size) (pos : 0 < saved.maxMutations) : Turned n saved s := by
  induction idle with
  | saved => exact start
  | run r idle kept ih => exact ih.run nonempty pos kept

end Turns

/-- The place of a strategy is one in its corpus, once there is any. After a save, as long as nothing else
is saved, the entries of the corpus are taken in turn from there on, each for as many runs as the budget
allows. In two stages, the inputs are mutated in every fifth run of an entry but the first, and the
schedule in the others. -/
theorem current_in_rotation (reachable : s.Reachable) :
    (0 < s.corpus.size → s.currentInputIndex < s.corpus.size) ∧
    ∀ summary : RunSummary,
      let saved := Scheduler.observe s summary
      s.corpus.size < saved.corpus.size → ∀ (n : Nat) (s' : FeedbackStrategy), Idles saved n s' →
        ∃ base : RunGenerator,
          saved.corpus[(saved.currentInputIndex + n / saved.maxMutations) % saved.corpus.size]? =
            some base ∧
          (Scheduler.prepare s').2.current =
            (mutant saved.mode saved.maxMutations n base s'.rng).startIteration
              (Scheduler.prepare s').2.scheduleLength := by
  have valid : ∀ {s : FeedbackStrategy}, s.Reachable → 0 < s.corpus.size →
      s.currentInputIndex < s.corpus.size := fun reachable nonempty =>
    Nat.lt_of_le_sub_one nonempty reachable.isPlaced.index
  refine ⟨valid reachable, ?_⟩
  intro summary saved grown n s' idle
  have reachable' : saved.Reachable := reachable.carryOut (.observe summary)
  have nonempty : 0 < saved.corpus.size := Nat.zero_lt_of_lt grown
  obtain ⟨novelty, eq⟩ : ∃ novelty, saved = _ := exists_observe_eq grown
  have start : Turned 0 saved saved := turned_saved reachable'.isPlaced.budget
    (congrArg (·.mutationsWithoutSave) eq) (congrArg (·.staleIterations) eq) (valid reachable' nonempty)
  have turned := idle.turned start nonempty reachable'.isPlaced.budget
  obtain ⟨base, entry⟩ := turned.exists_entry nonempty
  refine ⟨base, ?_, turned.current_prepare entry⟩
  rw [turned.source nonempty, turned.corpus] at entry
  exact entry

lemma signal_carryOut (c : Call) : (c.carryOut s).signal = s.signal := by
  cases c with
  | request q =>
    obtain ⟨_, _, _, eq⟩ := exists_serve_eq (s := s) q
    simp only [carryOut, eq]
  | observe summary =>
    simp only [carryOut, Scheduler.observe]
    split <;> rfl
  | prepare =>
    obtain ⟨_, _, _, _, _, eq⟩ := exists_nextGenerator_eq (s := s)
    simp only [carryOut, Scheduler.prepare, eq]

/-- Without a fingerprint nothing is saved where fingerprints are the signal. -/
lemma idles_after_idle (signal : saved.signal = .timeline) (n : Nat) :
    Idles saved n (after saved (idle n)) ∧ (after saved (idle n)).signal = .timeline := by
  induction n with
  | zero => exact ⟨.saved, signal⟩
  | succ n ih =>
    obtain ⟨idle', signal⟩ := ih
    have ready : ((Scheduler.prepare (after saved (idle n))).2).signal = .timeline :=
      (signal_carryOut .prepare).trans signal
    have kept : (Scheduler.observe (Scheduler.prepare (after saved (idle n))).2
        RunSummary.empty).corpus = (after saved (idle n)).corpus := by
      simp only [Scheduler.observe, Novelty.note, ready]
      exact prepare_eq.1
    rw [idle, after, List.foldl_append]
    refine ⟨.run ⟨[], .empty⟩ idle' (congrArg Array.size kept), ?_⟩
    exact (signal_carryOut (.observe .empty)).trans ready

/-- Two runs are saved, with a budget of seven. The thirteenth run after that is derived from the second,
by a mutation of its inputs. -/
theorem current_after_idle :
    let fingerprint (hash : UInt64) := { RunSummary.empty with timelineHash := some hash }
    let start := (ofKind (.pct 1 .shuffled) 0 false 42 .twoStage .timeline).withMaxMutations 7
    let s := after start [.observe (fingerprint 7), .prepare]
    let saved := Scheduler.observe s (fingerprint 8)
    let s' := after saved (idle 12)
    s.Reachable ∧ s.corpus.size < saved.corpus.size ∧ Idles saved 12 s' ∧
      ∃ base, saved.corpus[1]? = some base ∧
        (Scheduler.prepare s').2.current =
          (base.mutateInput s'.rng).1.startIteration (Scheduler.prepare s').2.scheduleLength := by
  have reachable : (after ((ofKind (.pct 1 .shuffled) 0 false 42 .twoStage .timeline).withMaxMutations 7)
      [.observe { RunSummary.empty with timelineHash := some 7 }, .prepare]).Reachable :=
    .carryOut .prepare (.carryOut (.observe _) (.withMaxMutations 7 (.ofKind ..)))
  have rotation := (current_in_rotation reachable).2
    { RunSummary.empty with timelineHash := some 8 }
  obtain ⟨current, rng, begun, -⟩ :=
    exists_ofKind_eq (.pct 1 .shuffled) 0 false 42 .twoStage .timeline 7
  rw [begun] at reachable rotation ⊢
  intro fingerprint start s saved s'
  obtain ⟨current', rng', ready⟩ : ∃ current' rng', s =
      ⟨current', #[current], rng', .twoStage, .timeline, 7, 0, false, 0, 0, 0, 0, 0,
        (Novelty.empty.note .timeline [] (fingerprint 7)).2, #[], []⟩ :=
    exists_prepare_eq (s := after start [.observe (fingerprint 7)])
      (Nat.lt_of_sub_eq_succ rfl) (Nat.lt_of_sub_eq_succ rfl)
  have eq : saved = ⟨current', #[current, current'], rng', .twoStage, .timeline, 7, 0, false, 0, 0, 0,
      0, 0, ((Novelty.empty.note .timeline [] (fingerprint 7)).2.note .timeline [] (fingerprint 8)).2,
      #[], []⟩ := by
    rw [show saved = Scheduler.observe s (fingerprint 8) from rfl, ready]
    rfl
  have grown : s.corpus.size < saved.corpus.size := by
    rw [ready, eq]
    exact Nat.lt_succ_self 1
  have idle' : Idles saved 12 s' := (idles_after_idle (congrArg (·.signal) eq) 12).1
  refine ⟨reachable, grown, idle', ?_⟩
  obtain ⟨base, entry, derived⟩ := rotation grown 12 s' idle'
  have budget : saved.maxMutations = 7 := congrArg (·.maxMutations) eq
  have place : (saved.currentInputIndex + 12 / saved.maxMutations) % saved.corpus.size = 1 := by
    have index : saved.currentInputIndex = 0 := congrArg (·.currentInputIndex) eq
    have size : saved.corpus.size = 2 := congrArg (·.corpus.size) eq
    rw [index, size, budget]
  have mutated : mutant saved.mode saved.maxMutations 12 base s'.rng = (base.mutateInput s'.rng).1 := by
    have mode : saved.mode = .twoStage := congrArg (·.mode) eq
    have fifth : 0 < 12 % 7 ∧ twoStageThreshold ∣ 12 % 7 := by decide
    rw [mode, budget, mutant, if_pos fifth]
  refine ⟨base, ?_, ?_⟩
  · rw [← place]
    exact entry
  · rw [← mutated]
    exact derived

end FeedbackStrategy

end Interleaving
