import Mathlib
import Interleaving.Proofs.Chain.Partition
import Interleaving.Schedule.Pctcp

/-!
# Schedules by priorities of chains

Every operation that is offered has an entry in a chain that has not been run: either it is pending
already, or taking it in makes it so. Chains may be joined and demoted and their operations reordered in
between, but no entry is lost. So a schedule whose state is `PctcpSchedule.Valid` always finds an
operation to run among those offered (`Valid.next`).
-/

namespace Interleaving

namespace ChainSet

variable {s : ChainSet}

lemma Valid.demote (V : Valid s) {c : ChainId} (mem : c ∈ s.order) : Valid (s.demote c) := by
  have mem_demote : ∀ d, d ∈ (s.demote c).order ↔ d ∈ s.order := by
    intro d
    simp only [ChainSet.demote, List.mem_append, List.mem_filter, List.mem_singleton]
    grind
  have L := V.linked
  refine ⟨⟨?_, fun d => ?_, fun d h => ?_, L.placed, L.chainOf, L.next, L.ordered⟩, V.recorded,
    fun d h => V.live d ((mem_demote d).mp h), fun d hd e he => ?_⟩
  · have fresh : c ∉ s.order.filter (· != c) := by simp
    exact List.nodup_append.mpr ⟨L.order_nodup.filter _, List.nodup_singleton c,
      fun a ha b hb e => fresh (by simp_all)⟩
  · rw [mem_demote]
    exact L.mem_order d
  · exact L.lt_nextChainId d ((mem_demote d).mp h)
  · exact V.reduced d ((mem_demote d).mp hd) e ((mem_demote e).mp he)

end ChainSet

namespace PctcpSchedule

variable {g : PctcpSchedule} {enabled : List Operation}

/-- The chains are valid, only operations that were offered have been run, and each pending operation
has not. -/
structure Valid (g : PctcpSchedule) : Prop where
  chains : g.chains.Valid
  scheduled : ∀ n ∈ g.scheduled, n < g.chains.ops.size
  pending : ∀ id n, g.pending.get? id = some n →
    n ∉ g.scheduled ∧ ∃ o, g.chains.ops[n]? = some o ∧ o.id = id

lemma Valid.sampleChangePoint (V : g.Valid) : g.sampleChangePoint.Valid :=
  ⟨V.chains, V.scheduled, V.pending⟩

lemma valid_startIteration (g : PctcpSchedule) (scheduleLength : Nat) :
    (g.startIteration scheduleLength).Valid := by
  refine Valid.sampleChangePoint ⟨ChainSet.Valid.empty, fun n h => ?_, fun id n h => ?_⟩
  · cases h
  · cases h

/-- An operation that was taken in behind all others is pending. -/
lemma Valid.offered (V : g.Valid) {chains : ChainSet} (Vc : chains.Valid) {o : OfferedOperation}
    (pushed : chains.ops = g.chains.ops.push o) (priorityChoices : ChoiceStream) :
    PctcpSchedule.Valid { g with
      chains := chains
      pending := g.pending.insert o.id g.chains.ops.size
      priorityChoices := priorityChoices } := by
  constructor
  case chains => exact Vc
  case scheduled =>
    intro n h
    show n < chains.ops.size
    rw [pushed, Array.size_push]
    exact Nat.lt_succ_of_lt (V.scheduled n h)
  case pending =>
    intro id n h
    simp only [SortedMap.get?_insert] at h
    show n ∉ g.scheduled ∧ ∃ o, chains.ops[n]? = some o ∧ o.id = id
    rw [pushed]
    split at h
    · next e =>
      cases Option.some.inj h
      -- The new entry has a number that none had before, so it has not been run.
      exact ⟨fun h => Nat.lt_irrefl _ (V.scheduled _ h), o, Array.getElem?_push_size, e.symm⟩
    · obtain ⟨fresh, o', get, e⟩ := V.pending id n h
      obtain ⟨lt, _⟩ := Array.getElem?_eq_some_iff.mp get
      refine ⟨fresh, o', ?_, e⟩
      rw [Array.getElem?_push_lt lt, ← get, Array.getElem?_eq_getElem lt]

/-- An operation that was run is no longer pending. -/
lemma Valid.ran (V : g.Valid) {m : Nat} {o : OfferedOperation} (entry : g.chains.ops[m]? = some o) :
    PctcpSchedule.Valid { g with
      scheduled := g.scheduled.insert m
      pending := g.pending.erase o.id
      steps := g.steps + 1 } := by
  constructor
  case chains => exact V.chains
  case scheduled =>
    intro n h
    rcases SortedSet.mem_insert.mp h with rfl | h
    · exact (Array.getElem?_eq_some_iff.mp entry).1
    · exact V.scheduled n h
  case pending =>
    intro id n h
    rw [SortedMap.get?_erase] at h
    split at h
    · cases h
    · next ne =>
      obtain ⟨fresh, o', entry', same⟩ := V.pending id n h
      refine ⟨fun h => ?_, o', entry', same⟩
      rcases SortedSet.mem_insert.mp h with rfl | h
      · -- The operation that was run is known by another number.
        rw [entry] at entry'
        cases Option.some.inj entry'
        exact ne same.symm
      · exact fresh h

/-- Taking in the operations offered meets no fault, and leaves all of them pending. -/
lemma Valid.discover (V : g.Valid) (ops : List Operation) :
    ∃ g', g.discover ops = (g', none) ∧ g'.Valid ∧
      (∀ op ∈ ops, g'.pending.contains op.id = true) ∧
      ∀ id, g.pending.contains id = true → g'.pending.contains id = true := by
  induction ops generalizing g with
  | nil => exact ⟨g, rfl, V, by simp, fun _ h => h⟩
  | cons op ops ih =>
    rw [PctcpSchedule.discover]
    by_cases known : g.pending.contains op.id = true
    · obtain ⟨g', run, V', offered, kept⟩ := ih V
      refine ⟨g', by rw [if_pos known, run], V', fun x h => ?_, kept⟩
      rcases List.mem_cons.mp h with rfl | h
      · exact kept _ known
      · exact offered x h
    · obtain ⟨chains, choices, run, Vc, pushed⟩ :=
        V.chains.offer op.id op.clock g.priorityChoices
      obtain ⟨g', run', V', offered, kept⟩ := ih (V.offered Vc pushed choices)
      refine ⟨g', by rw [if_neg known]; simp only [run, run'], V', fun x h => ?_,
        fun id h => kept id (SortedMap.contains_insert.mpr (.inr h))⟩
      rcases List.mem_cons.mp h with rfl | h
      · exact kept x.id (SortedMap.contains_insert.mpr (.inl rfl))
      · exact offered x h

lemma select?_eq_some {c : ChainId} {n : Nat} (h : g.select? enabled = some (c, n)) :
    c ∈ g.chains.order ∧ n ∈ g.chains.opsOf c ∧ g.isRunnable enabled n = true := by
  rw [select?, Option.orElse_eq_some] at h
  rcases h with h | ⟨_, h⟩
  · obtain ⟨d, mem, h⟩ := List.exists_of_findSome?_eq_some h
    obtain ⟨m, h, e⟩ := Option.map_eq_some_iff.mp h
    cases e
    rw [Option.filter_eq_some_iff] at h
    exact ⟨mem, List.mem_of_find?_eq_some h.1, h.2⟩
  · obtain ⟨d, mem, h⟩ := List.exists_of_findSome?_eq_some h
    obtain ⟨m, h, e⟩ := Option.map_eq_some_iff.mp h
    cases e
    exact ⟨mem, List.mem_of_find?_eq_some h, List.find?_some h⟩

/-- Where an operation in a chain can be run, one is selected. -/
lemma select?_ne_none {c : ChainId} {n : Nat} (mem : c ∈ g.chains.order)
    (mem' : n ∈ g.chains.opsOf c) (runs : g.isRunnable enabled n = true) :
    g.select? enabled ≠ none := by
  rw [select?, Ne, Option.orElse_eq_none, not_and]
  intro _ none
  have := List.findSome?_eq_none_iff.mp none c mem
  rw [Option.map_eq_none_iff, List.find?_eq_none] at this
  exact this n mem' runs

lemma isRunnable_iff {n : Nat} :
    g.isRunnable enabled n = true ↔
      n ∉ g.scheduled ∧ ∃ o, g.chains.ops[n]? = some o ∧ ∃ op ∈ enabled, op.id = o.id := by
  simp only [isRunnable, Bool.and_eq_true, Bool.not_eq_true', ← Bool.not_eq_true,
    SortedSet.contains_iff, Option.any_eq_true, List.any_eq_true, beq_iff_eq]

/-- Demoting a chain keeps the state valid and the pending operations. -/
lemma Valid.change (V : g.Valid) (enabled : List Operation) :
    (g.change enabled).Valid ∧ (g.change enabled).pending = g.pending := by
  rw [PctcpSchedule.change]
  split
  · exact ⟨V, rfl⟩
  · split
    · exact ⟨⟨V.chains, V.scheduled, V.pending⟩, rfl⟩
    · split
      · next c n select =>
        obtain ⟨mem, _⟩ := select?_eq_some select
        have V' : PctcpSchedule.Valid { g with
            chains := g.chains.demote c, inversions := g.inversions + 1 } :=
          ⟨V.chains.demote mem, V.scheduled, V.pending⟩
        exact ⟨V'.sampleChangePoint, rfl⟩
      · exact ⟨V, rfl⟩

/-- Where a pending operation is offered, one of those offered is run. -/
lemma Valid.pick (V : g.Valid) {op : Operation} (mem : op ∈ enabled)
    (offered : g.pending.contains op.id = true) :
    ∃ op ∈ enabled, ∃ g', g.pick enabled = (.ok op.id, g') ∧ g'.Valid := by
  obtain ⟨n, get⟩ := Option.isSome_iff_exists.mp offered
  obtain ⟨fresh, o, entry, same⟩ := V.pending _ n get
  obtain ⟨lt, _⟩ := Array.getElem?_eq_some_iff.mp entry
  obtain ⟨c, place⟩ := (V.chains.linked.placed n).mp lt
  have runs : g.isRunnable enabled n = true :=
    isRunnable_iff.mpr ⟨fresh, o, entry, op, mem, same.symm⟩
  cases select : g.select? enabled with
  | none => exact absurd select (select?_ne_none (V.chains.linked.mem_order_of_mem place) place runs)
  | some found =>
    -- What is selected need not be `n`, but it can be run as well.
    obtain ⟨d, m⟩ := found
    obtain ⟨_, place', runs'⟩ := select?_eq_some select
    obtain ⟨fresh', o', entry', op', mem', same'⟩ := isRunnable_iff.mp runs'
    have choose : g.choose? enabled = some (m, o'.id) := by
      simp only [choose?, select, Option.bind_some, entry', Option.map_some]
    refine ⟨op', mem', _, ?_, V.ran entry'⟩
    rw [PctcpSchedule.pick, choose, same']

/-- A schedule finds one of the operations offered to run, and stays valid. -/
lemma Valid.next (V : g.Valid) (ne : enabled ≠ []) :
    (∃ op ∈ enabled, (g.next enabled).1 = .ok op.id) ∧ (g.next enabled).2.Valid := by
  obtain ⟨g₁, run, V₁, offered, _⟩ := V.discover enabled
  obtain ⟨V₂, pending⟩ := V₁.change enabled
  obtain ⟨op, mem⟩ := List.exists_mem_of_ne_nil enabled ne
  have offered' : (g₁.change enabled).pending.contains op.id = true := by
    rw [pending]
    exact offered op mem
  obtain ⟨op', mem', g', pick, V'⟩ := V₂.pick mem offered'
  simp only [PctcpSchedule.next, run, pick]
  exact ⟨⟨op', mem', rfl⟩, V'⟩

end PctcpSchedule

end Interleaving
