import Interleaving.Proofs.Strategy.Steps

/-!
# Growth of the corpus

A search by feedback saves a run exactly if the run is novel, which is said here of the runs alone: it
shows something that none of the runs before it has shown. What the strategy keeps in order to find out
reflects all runs so far (`Novelty.Reflects`). Noting a run tells whether it is novel and keeps the
reflection (`Novelty.Reflects.note`), so the corpus has as many entries as there have been novel runs
(`FeedbackStrategy.size_corpus_eq_novelCount`).
-/

namespace Interleaving

namespace SortedSet

variable {κ : Type} [Ord κ] [Std.TransOrd κ] [Std.LawfulEqOrd κ] {s t : SortedSet κ}

instance {k : κ} : Decidable (k ∈ s) := decidable_of_iff _ contains_iff

/-- A union is larger than the first set exactly if the second has something new. -/
lemma size_lt_size_union : s.size < (s.union t).size ↔ ∃ k ∈ t, k ∉ s := by
  have sub : s.toList.Subperm (s.union t).toList :=
    List.subperm_of_subset s.nodup_toList fun k mem => mem_union.mpr (.inl mem)
  constructor
  · intro lt
    by_contra none
    have same : s.union t = s := by
      refine ext fun k => ⟨fun mem => ?_, fun mem => mem_union.mpr (.inl mem)⟩
      obtain mem | mem := mem_union.mp mem
      · exact mem
      · by_contra fresh
        exact none ⟨k, mem, fresh⟩
    rw [same] at lt
    exact Nat.lt_irrefl _ lt
  · rintro ⟨k, mem, fresh⟩
    by_contra le
    have perm := sub.perm_of_length_le (Nat.le_of_not_lt le)
    exact fresh (perm.mem_iff.mpr (mem_union.mpr (.inr mem)))

end SortedSet

/-- What a program asks of a strategy in the course of a run. -/
inductive Request where
  | operation (ops : List Operation)
  | bool (maxValue : UInt64)
  | int (maxValue : UInt64)

namespace Request

/-- The strategy after a request, whatever its answer is. -/
def serve {S : Type} [Scheduler S] (s : S) : Request → S
  | operation ops => (Scheduler.nextOperation s ops).2
  | bool maxValue => (Scheduler.nextBool s maxValue).2
  | int maxValue => (Scheduler.nextInt s maxValue).2

/-- The number of operations to choose from, where there are any. -/
def choices? : Request → Option Nat
  | operation ops => (some (Operation.enabledAmong ops).length).filter (0 < ·)
  | bool _ => none
  | int _ => none

end Request

/-- A run as a strategy sees it: what it is asked in the run and told after it. -/
structure Iteration where
  requests : List Request
  summary : RunSummary

namespace Iteration

/-- The strategy after the run, ready for the next one. -/
def play {S : Type} [Scheduler S] (s : S) (r : Iteration) : S :=
  (Scheduler.prepare (Scheduler.observe (r.requests.foldl Request.serve s) r.summary)).2

/-- The number of operations to choose from at each step of the run. -/
def branching (r : Iteration) : List Nat := r.requests.filterMap Request.choices?

/-- The run shows something that no earlier run has shown. -/
def IsNovel (signal : FeedbackSignal) (earlier : List Iteration) (r : Iteration) : Prop :=
  match signal with
  | .coverage =>
    (∃ key ∈ r.summary.eventCoverage.toList, ∀ e ∈ earlier, key ∉ e.summary.eventCoverage) ∨
    (∃ state ∈ r.summary.visitedStates.toList, ∀ e ∈ earlier, state ∉ e.summary.visitedStates) ∨
    (r.summary.patternMatched = true ∧ ∀ e ∈ earlier, e.summary.patternMatched = false)
  | .timeline =>
    ∃ hash ∈ r.summary.timelineHash, ∀ e ∈ earlier, e.summary.timelineHash ≠ some hash
  | .prefixBranching =>
    ∃ step < r.branching.length, ∃ count ∈ r.branching[step]?,
      ∀ e ∈ earlier, ∀ n ∈ e.branching[step]?, n < count

instance {signal : FeedbackSignal} {earlier : List Iteration} {r : Iteration} :
    Decidable (r.IsNovel signal earlier) :=
  match signal with
  | .coverage => inferInstanceAs (Decidable (_ ∨ _ ∨ _))
  | .timeline => inferInstanceAs (Decidable (∃ hash ∈ r.summary.timelineHash, _))
  | .prefixBranching => inferInstanceAs (Decidable (∃ step < r.branching.length, _))

/-- How many of the runs are novel, each with respect to all runs before it. -/
def novelCount (signal : FeedbackSignal) (earlier : List Iteration) : List Iteration → Nat
  | [] => 0
  | r :: rest =>
    (if r.IsNovel signal earlier then 1 else 0) + novelCount signal (earlier ++ [r]) rest

end Iteration

namespace Novelty

variable {n : Novelty} {signal : FeedbackSignal} {earlier : List Iteration}
variable {best counts : List Nat}

/-- A list is raised exactly if it is below the other at some step, or does not reach it. -/
lemma fst_raise :
    (raise best counts).1 = true ↔
      ∃ step : Nat, ∃ count ∈ counts[step]?, ∀ b ∈ best[step]?, b < count := by
  induction best, counts using raise.induct with
  | case1 best => simp [raise]
  | case2 counts nonempty =>
    cases counts with
    | nil => exact absurd rfl nonempty
    | cons c counts => exact iff_of_true rfl ⟨0, c, rfl, by simp⟩
  | case3 b best c counts _ _ _ ih =>
    rw [← Nat.or_exists_add_one]
    simp only [raise, Bool.or_eq_true, decide_eq_true_eq, ih]
    simp [or_comm]

/-- The larger numbers are all that there is to know of both lists. -/
lemma snd_raise (step count : Nat) :
    (∀ b ∈ (raise best counts).2[step]?, b < count) ↔
      (∀ b ∈ best[step]?, b < count) ∧ ∀ c ∈ counts[step]?, c < count := by
  induction best, counts using raise.induct generalizing step with
  | case1 best => simp [raise]
  | case2 counts _ => cases counts <;> simp [raise]
  | case3 b best c counts _ _ _ ih =>
    cases step with
    | zero => simp [raise]
    | succ step => simpa [raise] using ih step

/-- What is noted is what the earlier runs have shown. -/
def Reflects (signal : FeedbackSignal) (earlier : List Iteration) (n : Novelty) : Prop :=
  match signal with
  | .coverage =>
    (∀ key, key ∈ n.coveredEvents ↔ ∃ e ∈ earlier, key ∈ e.summary.eventCoverage) ∧
    (∀ state, state ∈ n.coveredStates ↔ ∃ e ∈ earlier, state ∈ e.summary.visitedStates) ∧
    (n.patternMatched = true ↔ ∃ e ∈ earlier, e.summary.patternMatched = true)
  | .timeline =>
    ∀ hash, hash ∈ n.timelines ↔ ∃ e ∈ earlier, e.summary.timelineHash = some hash
  | .prefixBranching =>
    ∀ step count : Nat, (∀ best ∈ n.maxBranching[step]?, best < count) ↔
      ∀ e ∈ earlier, ∀ c ∈ e.branching[step]?, c < count

lemma reflects_empty : Reflects signal [] empty := by
  cases signal <;> simp [Reflects, empty]

/-- A run that is noted is found to be novel exactly if it is, and is one of the earlier ones for those
that follow. -/
lemma Reflects.note (R : n.Reflects signal earlier) (r : Iteration) :
    ((n.note signal r.branching r.summary).1 = true ↔ r.IsNovel signal earlier) ∧
      (n.note signal r.branching r.summary).2.Reflects signal (earlier ++ [r]) := by
  cases signal with
  | coverage =>
    obtain ⟨events, states, matched⟩ := R
    constructor
    · simp only [Novelty.note, Iteration.IsNovel, Bool.or_eq_true, decide_eq_true_eq,
        SortedSet.size_lt_size_union, events, states, Bool.and_eq_true, Bool.not_eq_true',
        ← Bool.not_eq_true, matched]
      simp [or_assoc]
    · refine ⟨fun key => ?_, fun state => ?_, ?_⟩
      · simp [Novelty.note, events, or_and_right, exists_or]
      · simp [Novelty.note, states, or_and_right, exists_or]
      · simp [Novelty.note, matched, or_and_right, exists_or]
  | timeline =>
    have seen : ∀ hash, hash ∈ n.timelines ↔ ∃ e ∈ earlier, e.summary.timelineHash = some hash := R
    cases e : r.summary.timelineHash with
    | none =>
      simp only [Novelty.note, Iteration.IsNovel, e]
      refine ⟨by simp, fun hash => ?_⟩
      simp [seen, e, or_and_right, exists_or]
    | some hash =>
      simp only [Novelty.note, Iteration.IsNovel, e]
      constructor
      · simp [← Bool.not_eq_true, seen]
      · intro hash'
        simp [seen, e, or_and_right, exists_or, or_comm, eq_comm]
  | prefixBranching =>
    have seen : ∀ step count : Nat, (∀ best ∈ n.maxBranching[step]?, best < count) ↔
      ∀ e ∈ earlier, ∀ c ∈ e.branching[step]?, c < count := R
    constructor
    · simp only [Novelty.note, Iteration.IsNovel, fst_raise, seen]
      -- That the step is one of the run is said only so that novelty can be decided.
      refine exists_congr fun step => ⟨?_, And.right⟩
      rintro ⟨count, mem, more⟩
      exact ⟨(List.getElem?_eq_some_iff.mp mem).1, count, mem, more⟩
    · intro step count
      simp only [Novelty.note, snd_raise, seen]
      simp [or_imp, forall_and]

end Novelty

namespace FeedbackStrategy

variable {s : FeedbackStrategy} {earlier : List Iteration}

/-- The strategy has made no run yet. -/
structure IsFresh (s : FeedbackStrategy) : Prop where
  corpus : s.corpus = #[]
  novelty : s.novelty = .empty
  branching : s.branching = #[]

lemma isFresh_ofKind (kind : ScheduleKind) (maxSteps : Nat) (fair : Bool) (seed : UInt64)
    (mode : FeedbackMode) (signal : FeedbackSignal) :
    (ofKind kind maxSteps fair seed mode signal).IsFresh :=
  ⟨rfl, rfl, rfl⟩

/-- A request adds to the branching of the run, and changes nothing that lasts longer than the run. -/
lemma serve_eq (q : Request) :
    (q.serve s).corpus = s.corpus ∧ (q.serve s).novelty = s.novelty ∧
      (q.serve s).signal = s.signal ∧
      (q.serve s).branching.toList = s.branching.toList ++ q.choices?.toList := by
  cases q with
  | operation ops =>
    cases e : Operation.enabledAmong ops with
    | nil => simp [Request.serve, Scheduler.nextOperation, Request.choices?, e]
    | cons first others =>
      simp [Request.serve, Scheduler.nextOperation, Request.choices?, e, Option.filter]
  | bool maxValue => simp [Request.serve, Scheduler.nextBool, Request.choices?]
  | int maxValue => simp [Request.serve, Scheduler.nextInt, Request.choices?]

lemma foldl_serve_eq (requests : List Request) :
    (requests.foldl Request.serve s).corpus = s.corpus ∧
      (requests.foldl Request.serve s).novelty = s.novelty ∧
      (requests.foldl Request.serve s).signal = s.signal ∧
      (requests.foldl Request.serve s).branching.toList =
        s.branching.toList ++ requests.filterMap Request.choices? := by
  induction requests generalizing s with
  | nil => simp
  | cons q requests ih =>
    obtain ⟨corpus, novelty, signal, branching⟩ := serve_eq (s := s) q
    obtain ⟨corpus', novelty', signal', branching'⟩ := ih (s := q.serve s)
    refine ⟨corpus'.trans corpus, novelty'.trans novelty, signal'.trans signal, ?_⟩
    rw [List.foldl_cons, branching', branching]
    cases e : q.choices? <;> simp [e]

/-- Learning from a run saves it exactly if it is found to be novel. -/
lemma observe_eq (summary : RunSummary) :
    (Scheduler.observe s summary).novelty =
        (s.novelty.note s.signal s.branching.toList summary).2 ∧
      (Scheduler.observe s summary).signal = s.signal ∧
      (Scheduler.observe s summary).corpus.size = s.corpus.size +
        if (s.novelty.note s.signal s.branching.toList summary).1 then 1 else 0 := by
  simp only [Scheduler.observe]
  split
  · exact ⟨rfl, rfl, Array.size_push _⟩
  · exact ⟨rfl, rfl, rfl⟩

lemma prepare_eq :
    (Scheduler.prepare s).2.corpus = s.corpus ∧ (Scheduler.prepare s).2.novelty = s.novelty ∧
      (Scheduler.prepare s).2.signal = s.signal ∧ (Scheduler.prepare s).2.branching = #[] := by
  obtain ⟨_, _, _, _, _, eq⟩ := exists_nextGenerator_eq (s := s)
  simp only [Scheduler.prepare, eq, and_self]

/-- Before the next run, what is noted is what the earlier ones have shown. -/
structure HasSeen (s : FeedbackStrategy) (earlier : List Iteration) : Prop where
  novelty : s.novelty.Reflects s.signal earlier
  branching : s.branching = #[]

lemma IsFresh.hasSeen (fresh : s.IsFresh) : s.HasSeen [] where
  novelty := fresh.novelty ▸ Novelty.reflects_empty
  branching := fresh.branching

/-- A run adds an entry to the corpus exactly if it is novel. -/
lemma HasSeen.play (h : s.HasSeen earlier) (r : Iteration) :
    (r.play s).HasSeen (earlier ++ [r]) ∧ (r.play s).signal = s.signal ∧
      (r.play s).corpus.size = s.corpus.size + if r.IsNovel s.signal earlier then 1 else 0 := by
  obtain ⟨corpus, novelty, signal, branching⟩ := foldl_serve_eq (s := s) r.requests
  obtain ⟨novelty', signal', size'⟩ := observe_eq (s := r.requests.foldl Request.serve s) r.summary
  obtain ⟨corpus'', novelty'', signal'', branching''⟩ :=
    prepare_eq (s := Scheduler.observe (r.requests.foldl Request.serve s) r.summary)
  have branching : (r.requests.foldl Request.serve s).branching.toList = r.branching := by
    rw [branching, h.branching]
    rfl
  obtain ⟨novel, reflects⟩ := h.novelty.note r
  rw [novelty, signal, branching] at novelty' size'
  have same : (r.play s).signal = s.signal := signal''.trans (signal'.trans signal)
  refine ⟨⟨?_, branching''⟩, same, ?_⟩
  · rw [same]
    exact (novelty''.trans novelty') ▸ reflects
  · rw [← corpus, ← if_congr novel rfl rfl, ← size']
    exact congrArg Array.size corpus''

/-- After any history of runs, the corpus of a strategy that began with none has as many entries as
there have been novel runs. -/
theorem size_corpus_eq_novelCount (fresh : s.IsFresh) (history : List Iteration) :
    (history.foldl Iteration.play s).corpus.size = Iteration.novelCount s.signal [] history := by
  -- The runs before are arbitrary in the induction: what has been seen of them is all that counts.
  suffices h : ∀ earlier s, HasSeen s earlier → (history.foldl Iteration.play s).corpus.size =
      s.corpus.size + Iteration.novelCount s.signal earlier history by
    rw [h [] s fresh.hasSeen, fresh.corpus]
    exact Nat.zero_add _
  clear fresh
  induction history with
  | nil => exact fun _ _ _ => rfl
  | cons r rest ih =>
    intro earlier s seen
    obtain ⟨seen', signal, size⟩ := seen.play r
    rw [List.foldl_cons, ih _ _ seen', size, signal, Iteration.novelCount, Nat.add_assoc]

/-- Three runs in which the operations to choose from are two, one, and then one and two: the first and
the third are novel. -/
theorem size_corpus_of_three_runs :
    let a := Operation.ofActor 1 "a"
    let b := Operation.ofActor 2 "b"
    let s := ofKind (.pct 3 .geometric) 10 false 7 .twoStage .prefixBranching
    let history : List Iteration :=
      [⟨[.operation [a, b]], .empty⟩, ⟨[.int 4, .operation [b]], .empty⟩,
        ⟨[.operation [a], .bool 2, .operation [b, a]], .empty⟩]
    s.IsFresh ∧ (history.foldl Iteration.play s).corpus.size = 2 := by
  intro a b s history
  have fresh : s.IsFresh := isFresh_ofKind ..
  refine ⟨fresh, ?_⟩
  rw [size_corpus_eq_novelCount fresh]
  show Iteration.novelCount .prefixBranching [] history = 2
  decide

end FeedbackStrategy

end Interleaving
