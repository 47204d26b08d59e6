import Mathlib
import Interleaving.Proofs.Chain.Partition
import Interleaving.Schedule.Pct

/-!
# Schedules by priorities of operations

Every operation that is offered has a priority once it is discovered (`mem_discoverAll`), and demoting an
operation takes no priority away (`mem_change`). So of the operations offered one is always run
(`PctSchedule.next_mem`).
-/

namespace Interleaving.PctSchedule

variable {g : PctSchedule} {enabled : List Operation}

lemma mem_discover {id x : OperationId} :
    x ∈ (g.discover id).prioritized ↔ x = id ∨ x ∈ g.prioritized := by
  rw [discover]
  split
  · next h => exact ⟨.inr, by rintro (rfl | h') <;> assumption⟩
  · split
    · next h => simp [List.isEmpty_iff.mp h]
    · next h =>
      have pos : 0 < g.prioritized.length :=
        List.length_pos_iff.mpr fun e => h (List.isEmpty_iff.mpr e)
      have lt := ChoiceStream.nextIndex_lt pos g.priorityChoices
      exact List.mem_insertIdx (Nat.succ_le_of_lt lt)

lemma mem_discoverAll {x : OperationId} (ops : List Operation) :
    x ∈ (ops.foldl (fun g op => g.discover op.id) g).prioritized ↔
      (∃ op ∈ ops, op.id = x) ∨ x ∈ g.prioritized := by
  induction ops generalizing g with
  | nil => simp
  | cons op ops ih =>
    rw [List.foldl_cons, ih, mem_discover]
    simp only [List.mem_cons, eq_comm]
    grind

lemma prioritized_sampleChangePoints : g.sampleChangePoints.prioritized = g.prioritized := by
  rw [sampleChangePoints]
  split <;> rfl

lemma mem_demote {id x : OperationId} (mem : id ∈ g.prioritized) :
    x ∈ (g.demote id).prioritized ↔ x ∈ g.prioritized := by
  simp only [demote, List.mem_append, List.mem_filter, List.mem_singleton]
  grind

/-- The operation of highest priority has been seen, and can run. -/
lemma highest?_eq_some {id : OperationId} (h : g.highest? enabled = some id) :
    id ∈ g.prioritized ∧ ∃ op ∈ enabled, op.id = id := by
  refine ⟨List.mem_of_find?_eq_some h, ?_⟩
  simpa using List.find?_some h

lemma mem_change {x : OperationId} :
    x ∈ (g.change enabled).prioritized ↔ x ∈ g.prioritized := by
  rw [change]
  split
  · rfl
  · split
    · rfl
    · split
      · rfl
      · next id h =>
        have mem := (highest?_eq_some h).1
        split
        · exact mem_demote mem
        · rw [prioritized_sampleChangePoints]
          exact mem_demote mem

/-- Of operations that have been seen one has the highest priority, if there are any. -/
lemma exists_highest?_eq (seen : ∀ op ∈ enabled, op.id ∈ g.prioritized) (ne : enabled ≠ []) :
    ∃ id, g.highest? enabled = some id := by
  obtain ⟨op, mem⟩ := List.exists_mem_of_ne_nil enabled ne
  refine Option.isSome_iff_exists.mp (List.find?_isSome.mpr ⟨op.id, seen op mem, ?_⟩)
  exact List.any_eq_true.mpr ⟨op, mem, beq_self_eq_true _⟩

/-- Where something is offered, a schedule runs what has the highest priority after the change. -/
lemma exists_next_eq (g : PctSchedule) (ne : enabled ≠ []) :
    ∃ id,
      ((enabled.foldl (fun g op => g.discover op.id) g).change enabled).highest? enabled = some id ∧
      g.next enabled = (.ok id,
        let g := (enabled.foldl (fun g op => g.discover op.id) g).change enabled
        { g with steps := g.steps + 1 }) := by
  -- An operation that is offered has a priority even after a change.
  obtain ⟨id, first⟩ := exists_highest?_eq (fun op mem =>
    mem_change.mpr ((mem_discoverAll (g := g) enabled).mpr (.inl ⟨op, mem, rfl⟩))) ne
  exact ⟨id, first, by rw [next, first]⟩

/-- A schedule finds one of the operations offered to run. -/
lemma next_mem (g : PctSchedule) (ne : enabled ≠ []) :
    ∃ op ∈ enabled, (g.next enabled).1 = .ok op.id := by
  obtain ⟨id, first, picked⟩ := g.exists_next_eq ne
  obtain ⟨op, mem, rfl⟩ := (highest?_eq_some first).2
  exact ⟨op, mem, by rw [picked]⟩

/-- The schedule after decisions in a row, each with operations of its own to choose from. -/
def afterAll (g : PctSchedule) (offers : List (List Operation)) : PctSchedule :=
  offers.foldl (fun g enabled => (g.next enabled).2) g

end Interleaving.PctSchedule
