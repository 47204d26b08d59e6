import Mathlib
import Interleaving.Proofs.Schedule.Demotion
import Interleaving.Proofs.Schedule.Shuffle

/-!
# Change points drawn at once

A schedule that draws all its change points at the start of a run loses none of them and makes none twice:
the demotions made and the changes still ahead are as many as were drawn, at every moment of the run
(`PctSchedule.inversions_add_ahead`). A step at which a change comes either makes it or, where there is
nothing to choose from, puts it off to the next step that is free (`ChangePoint.ahead_postpone`). What is
drawn are different steps, since shuffling only exchanges entries (`ChangePoint.size_sampleAll`).
-/

namespace Interleaving

namespace SortedSet

variable {κ : Type} [Ord κ] [Std.TransOrd κ] [Std.LawfulEqOrd κ] {s : SortedSet κ} {k : κ}

lemma toList_insert_perm (fresh : k ∉ s) : (s.insert k).toList.Perm (k :: s.toList) := by
  refine (List.perm_ext_iff_of_nodup (nodup_toList _) ?_).mpr fun x => ?_
  · exact List.nodup_cons.mpr ⟨fresh, s.nodup_toList⟩
  · rw [mem_toList, mem_insert, List.mem_cons, mem_toList]

omit [Std.LawfulEqOrd κ] in
lemma toList_perm_erase [DecidableEq κ] (mem : k ∈ s) : s.toList.Perm (k :: (s.erase k).toList) := by
  refine (List.perm_ext_iff_of_nodup s.nodup_toList ?_).mpr fun x => ?_
  · refine List.nodup_cons.mpr ⟨fun h => ?_, nodup_toList _⟩
    exact (mem_erase.mp h).2 rfl
  · rw [List.mem_cons, mem_toList, mem_toList, mem_erase]
    by_cases e : x = k
    · simp [e, mem]
    · simp [e]

end SortedSet

namespace ChangePoint

variable {points : SortedSet Nat} {step : Nat}

/-- The number of changes at a step or after it. -/
def ahead (points : SortedSet Nat) (step : Nat) : Nat := points.toList.countP (step ≤ ·)

/-- Changes that are not at a step come after it if they do not come before it. -/
lemma ahead_of_not_mem (not : step ∉ points) : ahead points step = ahead points (step + 1) := by
  refine List.countP_congr fun p mem => ?_
  have other : p ≠ step := fun e => not (e ▸ mem)
  simp only [decide_eq_true_eq]
  omega

lemma ahead_erase : ahead (points.erase step) step = ahead (points.erase step) (step + 1) :=
  ahead_of_not_mem fun mem => (SortedSet.mem_erase.mp mem).2 rfl

lemma ahead_of_mem (mem : step ∈ points) :
    ahead points step = ahead points (step + 1) + 1 := by
  have perm := SortedSet.toList_perm_erase mem
  rw [ahead, ahead, perm.countP_eq, perm.countP_eq, List.countP_cons_of_pos (by simp),
    List.countP_cons_of_neg (by simp)]
  exact congrArg (· + 1) ahead_erase

lemma firstFree_spec {ps : List Nat} (sorted : ps.Pairwise (· < ·)) (n : Nat) :
    n ≤ firstFree n ps ∧ firstFree n ps ∉ ps := by
  induction ps generalizing n with
  | nil => exact ⟨le_rfl, List.not_mem_nil⟩
  | cons p ps ih =>
    obtain ⟨above, sorted⟩ := List.pairwise_cons.mp sorted
    rw [firstFree]
    split
    · next lt =>
      obtain ⟨le, not⟩ := ih sorted n
      exact ⟨le, by simp only [List.mem_cons, not_or]; exact ⟨by omega, not⟩⟩
    · split
      · next e =>
        obtain ⟨le, not⟩ := ih sorted (n + 1)
        exact ⟨by omega, by simp only [List.mem_cons, not_or]; exact ⟨by omega, not⟩⟩
      · refine ⟨le_rfl, fun mem => ?_⟩
        obtain rfl | mem := List.mem_cons.mp mem
        · omega
        · have := above n mem
          omega

/-- A change that is postponed is still ahead, at a step of its own. -/
lemma ahead_postpone (mem : step ∈ points) :
    ahead (postpone points step) (step + 1) = ahead points step := by
  have sorted : (points.erase step).toList.Pairwise (· < ·) :=
    (points.erase step).sorted.imp Nat.compare_eq_lt.mp
  obtain ⟨le, free⟩ := firstFree_spec sorted (step + 1)
  rw [ahead, ahead, postpone, (SortedSet.toList_insert_perm free).countP_eq,
    (SortedSet.toList_perm_erase mem).countP_eq, List.countP_cons_of_pos (by simpa using le),
    List.countP_cons_of_pos (by simp)]
  exact congrArg (· + 1) ahead_erase.symm

/-- As many changes are ahead at first as have been drawn. -/
lemma ahead_sampleAll (count length : Nat) (choices : ChoiceStream) :
    ahead (sampleAll count length choices).1 0 = min count length := by
  rw [← size_sampleAll count length choices]
  exact List.countP_eq_length.mpr (by simp)

end ChangePoint

namespace PctSchedule

variable {g : PctSchedule} {enabled : List Operation} {total made : Nat}

/-- So many decisions have been made, and the demotions made and the changes ahead are so many in all,
where these were drawn at once. -/
structure IsPaced (total made : Nat) (g : PctSchedule) : Prop where
  sampling : g.sampling = .shuffled
  steps : g.steps = made
  paced : ∃ points, g.changePoints = .fixed points ∧
    g.inversions + ChangePoint.ahead points g.steps = total

lemma isPaced_startIteration (sampling : g.sampling = .shuffled) (scheduleLength : Nat) :
    (g.startIteration scheduleLength).IsPaced
      (min g.maxSwitchPoints (g.startIteration scheduleLength).scheduleLength) 0 := by
  have length := (Prod.mk.inj (g.settings_startIteration scheduleLength)).2
  rw [length, startIteration, sampleChangePoints]
  simp only [sampling]
  exact ⟨rfl, rfl, _, rfl, (Nat.zero_add _).trans (ChangePoint.ahead_sampleAll ..)⟩

/-- A step makes the change that comes at it, or puts it off to a later one. -/
lemma IsPaced.change (h : g.IsPaced total made) (seen : ∀ op ∈ enabled, op.id ∈ g.prioritized)
    (ne : enabled ≠ []) :
    IsPaced total (made + 1) { g.change enabled with steps := (g.change enabled).steps + 1 } := by
  obtain ⟨sampling, rfl, points, fixed, paced⟩ := h
  have now : g.changePoints.contains g.steps = true ↔ g.steps ∈ points := by
    rw [fixed]
    exact SortedSet.contains_iff
  rw [change_eq]
  cases due : g.due? enabled with
  | some id =>
    rw [due?] at due
    split at due
    · next here =>
      have mem := now.mp ((Bool.and_eq_true ..).mp here).1
      rw [ChangePoint.ahead_of_mem mem] at paced
      have paced : g.inversions + 1 + ChangePoint.ahead points (g.steps + 1) = total := by omega
      simp only [sampling, if_true]
      exact ⟨sampling, rfl, points, fixed, paced⟩
    · cases due
  | none =>
    dsimp only
    split
    · next here =>
      have mem := now.mp ((Bool.and_eq_true ..).mp here).1
      rw [← ChangePoint.ahead_postpone mem] at paced
      exact ⟨sampling, rfl, _, congrArg (ChangePoints.postpone · g.steps) fixed, paced⟩
    · next elsewhere =>
      -- A change that came here would demote what is first of several operations.
      have not : g.steps ∉ points := by
        intro mem
        obtain ⟨id, first⟩ := exists_highest?_eq seen ne
        rw [due?, now.mpr mem, first] at due
        rw [now.mpr mem, Bool.true_and] at elsewhere
        simp [elsewhere, bne] at due
      rw [ChangePoint.ahead_of_not_mem not] at paced
      exact ⟨sampling, rfl, points, fixed, paced⟩

lemma IsPaced.next (h : g.IsPaced total made) (ne : enabled ≠ []) :
    (g.next enabled).2.IsPaced total (made + 1) := by
  obtain ⟨prioritized, choices, eq⟩ := exists_discoverAll_eq g enabled
  have found : (enabled.foldl (fun g op => g.discover op.id) g).IsPaced total made := by
    rw [eq]
    exact ⟨h.sampling, h.steps, h.paced⟩
  obtain ⟨id, -, picked⟩ := g.exists_next_eq ne
  rw [picked]
  exact found.change (fun op mem => (mem_discoverAll enabled).mpr (.inl ⟨op, mem, rfl⟩)) ne

lemma IsPaced.afterAll (h : g.IsPaced total made) {offers : List (List Operation)}
    (nonempty : ∀ enabled ∈ offers, enabled ≠ []) :
    (g.afterAll offers).IsPaced total (made + offers.length) := by
  induction offers generalizing g made with
  | nil => exact h
  | cons enabled offers ih =>
    have rest := ih (h.next (nonempty enabled List.mem_cons_self))
      fun enabled mem => nonempty enabled (List.mem_cons_of_mem _ mem)
    rw [Nat.add_right_comm] at rest
    exact rest

/-- After any decisions of a run whose change points were drawn at once, the demotions made and the
changes that come at this step or later are as many as there may be in the run, or as it has steps if
these are fewer. So that many are made once all changes are past, and never more. -/
theorem inversions_add_ahead (sampling : g.sampling = .shuffled) (scheduleLength : Nat)
    {offers : List (List Operation)} (nonempty : ∀ enabled ∈ offers, enabled ≠ []) :
    let start := g.startIteration scheduleLength
    let total := min g.maxSwitchPoints start.scheduleLength
    let now := start.afterAll offers
    now.steps = offers.length ∧ now.inversions ≤ g.maxSwitchPoints ∧
      ∃ points, now.changePoints = .fixed points ∧
        now.inversions + (points.toList.filter (now.steps ≤ ·)).length = total ∧
        ((∀ point ∈ points, point < now.steps) → now.inversions = total) := by
  intro start total now
  obtain ⟨-, steps, points, fixed, paced⟩ :=
    (isPaced_startIteration sampling scheduleLength).afterAll nonempty
  have sum : now.inversions + (points.toList.filter (now.steps ≤ ·)).length = total := by
    rw [← List.countP_eq_length_filter]
    exact paced
  refine ⟨steps.trans (Nat.zero_add _), ?_, points, fixed, sum, fun past => ?_⟩
  · exact (Nat.le_add_right _ _).trans (sum.trans_le (min_le_left _ _))
  · have none : points.toList.filter (now.steps ≤ ·) = [] :=
      List.filter_eq_nil_iff.mpr fun point mem => by simpa using past point mem
    rw [none] at sum
    exact sum

/-- Three changes are allowed, but a run of two steps has room for two. The one at the first step finds
a single operation and is put off past the other, to the third step. -/
theorem inversions_of_postponed_change :
    let a := Operation.ofActor 1 "a"
    let b := Operation.ofActor 2 "b"
    let g := ofStreams 3 .shuffled 2 (.ofValues #[4] 7) (.ofValues #[1] 7)
    let offers := [[a], [a, b], [b, a]]
    g.sampling = .shuffled ∧ (∀ enabled ∈ offers, enabled ≠ []) ∧
      ((g.startIteration 1).afterAll offers).inversions = 2 := by
  intro a b g offers
  have nonempty : ∀ enabled ∈ offers, enabled ≠ [] := by decide
  refine ⟨rfl, nonempty, ?_⟩
  obtain ⟨steps, -, points, fixed, -, past⟩ := inversions_add_ahead (g := g) rfl 1 nonempty
  have drawn : ((g.startIteration 1).afterAll offers).changePoints = .fixed (.ofList [1, 2]) := by
    decide +kernel
  obtain rfl := ChangePoints.fixed.inj (fixed.symm.trans drawn)
  refine past fun point mem => ?_
  rw [SortedSet.mem_ofList] at mem
  rw [steps]
  revert point
  decide

end PctSchedule

end Interleaving
