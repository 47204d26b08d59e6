import Mathlib
import Interleaving.Clock

/-!
# Order of clocks

Comparison of clocks is pointwise comparison of the counters, where an actor without a counter counts
as `0`. The order "at or below" is a preorder (`VectorClock.le_trans`), and "below" is its strict part:
irreflexive (`VectorClock.lt_irrefl`) and transitive (`VectorClock.lt_trans`). Two clocks stand to each
other in just one of four ways (`VectorClock.existsUnique_standing`), merging joins them, and a step
leads to a clock that nothing older has reached. `VectorClock.ordered_by_counters` says all of it.
-/

namespace Interleaving.VectorClock

lemma le_refl (c : VectorClock) : c.le c = true := by
  rw [le_iff]
  exact fun _ => UInt64.le_refl _

lemma le_trans {c d e : VectorClock} (cd : c.le d = true) (de : d.le e = true) :
    c.le e = true := by
  rw [le_iff] at cd de ⊢
  exact fun actor => UInt64.le_trans (cd actor) (de actor)

lemma level_iff {c d : VectorClock} :
    (∀ actor, c.get actor = d.get actor) ↔ c.le d = true ∧ d.le c = true := by
  rw [le_iff, le_iff]
  constructor
  · intro same
    exact ⟨fun actor => UInt64.le_of_eq (same actor), fun actor => UInt64.le_of_eq (same actor).symm⟩
  · rintro ⟨cd, dc⟩ actor
    exact UInt64.le_antisymm (cd actor) (dc actor)

/-- "Below" is the strict part of "at or below". -/
lemma lt_iff_le_not_le {c d : VectorClock} :
    c.lt d = true ↔ c.le d = true ∧ ¬ d.le c = true := by
  have differs : c.differs d = true ↔ ¬ (c.le d = true ∧ d.le c = true) := by
    rw [← level_iff, ← differs_eq_false_iff, Bool.not_eq_false]
  rw [lt, Bool.and_eq_true, differs]
  exact and_congr_right fun cd => not_congr (and_iff_right cd)

lemma lt_irrefl (c : VectorClock) : ¬ c.lt c = true := by
  rw [lt_iff_le_not_le]
  rintro ⟨le, not⟩
  exact not le

lemma lt_trans {c d e : VectorClock} (cd : c.lt d = true) (de : d.lt e = true) :
    c.lt e = true := by
  rw [lt_iff_le_not_le] at cd de ⊢
  exact ⟨le_trans cd.1 de.1, fun ec => de.2 (le_trans ec cd.1)⟩

/-- Neither clock is at or below the other. -/
def Unordered (c d : VectorClock) : Prop :=
  ¬ (∀ actor, c.get actor ≤ d.get actor) ∧ ¬ ∀ actor, d.get actor ≤ c.get actor

lemma Unordered.symm {c d : VectorClock} (h : c.Unordered d) : d.Unordered c := ⟨h.2, h.1⟩

lemma concurrent_iff {c d : VectorClock} : c.concurrent d = true ↔ c.Unordered d := by
  simp only [concurrent, Unordered, ← le_iff, Bool.and_eq_true, Bool.not_eq_true', Bool.not_eq_true]

lemma get_increment_of_ne {c : VectorClock} {actor other : String} (ne : actor ≠ other) :
    (c.increment actor).get other = c.get other := by
  rw [get, increment, SortedMap.get?_alter, if_neg (Ne.symm ne)]
  rfl

/-- The counter of the actor goes up by one unless it overflows. -/
lemma toNat_get_increment_self {c : VectorClock} {actor : String}
    (fits : (c.get actor).toNat + 1 < 2 ^ 64) :
    ((c.increment actor).get actor).toNat = (c.get actor).toNat + 1 := by
  have next : (c.increment actor).get actor = c.get actor + 1 := by
    rw [get, increment, SortedMap.get?_alter, if_pos rfl]
    rfl
  rw [next, UInt64.toNat_add]
  exact Nat.mod_eq_of_lt fits

lemma toNat_max (v w : UInt64) : (max v w).toNat = max v.toNat w.toNat := by
  show (if v ≤ w then w else v).toNat = _
  rw [max_def, apply_ite UInt64.toNat]
  rfl

lemma get_merge {c d : VectorClock} {actor : String} :
    (c.merge d).get actor = max (c.get actor) (d.get actor) := by
  have none (v : UInt64) : max v 0 = v := UInt64.toNat_inj.mp (by rw [toNat_max]; exact Nat.max_zero _)
  exact SortedMap.getD_get?_foldl_alter none d.counters.sorted

lemma toNat_get_merge {c d : VectorClock} {actor : String} :
    ((c.merge d).get actor).toNat = max (c.get actor).toNat (d.get actor).toNat := by
  rw [get_merge, toNat_max]

/-- How one clock can stand to another. -/
inductive Standing where
  | below
  | above
  | apart
  | level

/-- The first clock stands to the second in this way. -/
def Standing.Holds : Standing → VectorClock → VectorClock → Prop
  | below, c, d => c.lt d = true
  | above, c, d => d.lt c = true
  | apart, c, d => c.concurrent d = true
  | level, c, d => ∀ actor, c.get actor = d.get actor

/-- The ways in which a clock stands to another are told apart by the two comparisons. -/
lemma Standing.holds_iff {s : Standing} {c d : VectorClock} :
    s.Holds c d ↔ match s with
      | below => c.le d = true ∧ ¬ d.le c = true
      | above => d.le c = true ∧ ¬ c.le d = true
      | apart => ¬ c.le d = true ∧ ¬ d.le c = true
      | level => c.le d = true ∧ d.le c = true := by
  cases s with
  | below => exact lt_iff_le_not_le
  | above => exact lt_iff_le_not_le
  | apart =>
    rw [le_iff, le_iff]
    exact concurrent_iff
  | level => exact level_iff

/-- A clock is below another, above it, apart from it or level with it, and no two of these. -/
lemma existsUnique_standing (c d : VectorClock) : ∃! s : Standing, s.Holds c d := by
  simp only [Standing.holds_iff]
  by_cases cd : c.le d = true
  · by_cases dc : d.le c = true
    · refine ⟨.level, ⟨cd, dc⟩, fun s h => ?_⟩
      cases s <;> simp_all
    · refine ⟨.below, ⟨cd, dc⟩, fun s h => ?_⟩
      cases s <;> simp_all
  · by_cases dc : d.le c = true
    · refine ⟨.above, ⟨dc, cd⟩, fun s h => ?_⟩
      cases s <;> simp_all
    · refine ⟨.apart, ⟨cd, dc⟩, fun s h => ?_⟩
      cases s <;> simp_all

lemma le_merge_left (c d : VectorClock) : c.le (c.merge d) = true := by
  rw [le_iff]
  intro actor
  rw [UInt64.le_iff_toNat_le, toNat_get_merge]
  exact le_max_left _ _

lemma le_merge_right (c d : VectorClock) : d.le (c.merge d) = true := by
  rw [le_iff]
  intro actor
  rw [UInt64.le_iff_toNat_le, toNat_get_merge]
  exact le_max_right _ _

lemma merge_le {c d e : VectorClock} (ce : c.le e = true) (de : d.le e = true) :
    (c.merge d).le e = true := by
  rw [le_iff] at ce de ⊢
  intro actor
  rw [UInt64.le_iff_toNat_le, toNat_get_merge]
  exact max_le (UInt64.le_iff_toNat_le.mp (ce actor)) (UInt64.le_iff_toNat_le.mp (de actor))

/-- A step brings a clock above every clock that knows no more of the actor than it did. -/
lemma not_increment_le {c d : VectorClock} {actor : String}
    (fits : (c.get actor).toNat + 1 < 2 ^ 64) (old : d.get actor ≤ c.get actor) :
    ¬ (c.increment actor).le d = true := by
  rw [le_iff]
  intro le
  have le := UInt64.le_iff_toNat_le.mp (UInt64.le_trans (le actor) old)
  rw [toNat_get_increment_self fits] at le
  omega

lemma lt_increment {c : VectorClock} {actor : String} (fits : (c.get actor).toNat + 1 < 2 ^ 64) :
    c.lt (c.increment actor) = true := by
  rw [lt_iff_le_not_le]
  refine ⟨le_iff.mpr fun other => ?_, not_increment_le fits (UInt64.le_refl _)⟩
  by_cases same : actor = other
  · subst same
    rw [UInt64.le_iff_toNat_le, toNat_get_increment_self fits]
    exact Nat.le_succ _
  · rw [get_increment_of_ne same]
    exact UInt64.le_refl _

/-- Clocks are ordered by their counters, where a counter that is missing counts as `0`. "At or below"
is a preorder and "below" a strict order. Of two clocks the first is below the second, above it,
concurrent with it, or the same in every counter, and only one of these. Their merge is the least clock
at or above both. A step of an actor whose counter does not overflow leads to a clock above the present
one, which is not at or below any clock with at most the actor's old counter. -/
theorem ordered_by_counters :
    (∀ c d : VectorClock, c.le d = true ↔ ∀ actor, c.get actor ≤ d.get actor) ∧
    (∀ c : VectorClock, c.le c = true) ∧
    (∀ c d e : VectorClock, c.le d = true → d.le e = true → c.le e = true) ∧
    (∀ c : VectorClock, ¬ c.lt c = true) ∧
    (∀ c d e : VectorClock, c.lt d = true → d.lt e = true → c.lt e = true) ∧
    (∀ c d : VectorClock, ∃! s : Standing, s.Holds c d) ∧
    (∀ c d : VectorClock, c.le (c.merge d) = true ∧ d.le (c.merge d) = true ∧
      ∀ e : VectorClock, c.le e = true → d.le e = true → (c.merge d).le e = true) ∧
    ∀ (c : VectorClock) (actor : String), (c.get actor).toNat < 2 ^ 64 - 1 →
      c.lt (c.increment actor) = true ∧
      ∀ d : VectorClock, d.get actor ≤ c.get actor → ¬ (c.increment actor).le d = true := by
  refine ⟨fun _ _ => le_iff, le_refl, fun _ _ _ => le_trans, lt_irrefl, fun _ _ _ => lt_trans,
    existsUnique_standing, fun c d => ?_, fun c actor below => ?_⟩
  · exact ⟨le_merge_left c d, le_merge_right c d, fun _ => merge_le⟩
  · have fits : (c.get actor).toNat + 1 < 2 ^ 64 := by omega
    exact ⟨lt_increment fits, fun _ => not_increment_le fits⟩

/-- A counter that is written down as `0` is raised like one that is missing. -/
theorem ordered_after_first_step :
    let c := ofList [("x", 1), ("y", 0)]
    let d := ofList [("x", 5)]
    (c.get "y").toNat < 2 ^ 64 - 1 ∧ d.get "y" ≤ c.get "y" ∧
      c.lt (c.increment "y") = true ∧ ¬ (c.increment "y").le d = true := by
  intro c d
  have below : (c.get "y").toNat < 2 ^ 64 - 1 := by decide +kernel
  have old : d.get "y" ≤ c.get "y" := by decide +kernel
  obtain ⟨-, -, -, -, -, -, -, steps⟩ := ordered_by_counters
  obtain ⟨above, beyond⟩ := steps c "y" below
  exact ⟨below, old, above, beyond d old⟩

end Interleaving.VectorClock
