import Mathlib
import Interleaving.Proofs.Schedule.Demotion

/-!
# How priorities change

In a run the operations that have been offered have priorities, each one place, and two things change
them: operations that are offered for the first time are put in, never on top of others (`Discovers`),
and one may be demoted, which puts it behind all others. So of two operations known before, neither of
them demoted, the same one has the higher priority afterwards (`PctSchedule.priorities_next`).
-/

namespace Interleaving

section Order

variable {α : Type} {l l' : List α} {a b x : α}

/-- Of two members of a list one comes before the other. -/
lemma pair_sublist_or (ha : a ∈ l) (hb : b ∈ l) (ne : a ≠ b) :
    [a, b].Sublist l ∨ [b, a].Sublist l := by
  induction l with
  | nil => cases ha
  | cons c l ih =>
    obtain rfl | ha' := List.mem_cons.mp ha
    · have hb' := (List.mem_cons.mp hb).resolve_left ne.symm
      exact .inl ((List.singleton_sublist.mpr hb').cons_cons a)
    · obtain rfl | hb' := List.mem_cons.mp hb
      · exact .inr ((List.singleton_sublist.mpr ha').cons_cons b)
      · exact (ih ha' hb').imp (·.cons c) (·.cons c)

/-- Without repetitions it does so only in one order. -/
lemma not_pair_sublist_swap (nodup : l.Nodup) (before : [a, b].Sublist l) : ¬ [b, a].Sublist l := by
  induction l with
  | nil => cases before
  | cons c l ih =>
    obtain ⟨fresh, nodup⟩ := List.nodup_cons.mp nodup
    intro after
    cases before with
    | cons _ before =>
      cases after with
      | cons _ after => exact ih nodup before after
      | cons_cons _ after => exact fresh (before.subset (by simp))
    | cons_cons _ before =>
      cases after with
      | cons _ after => exact fresh (after.subset (by simp))
      | cons_cons _ after => exact fresh (List.singleton_sublist.mp before)

/-- If nothing that comes before something else does so no longer, the order is the same. -/
lemma pair_sublist_iff (nodup : l'.Nodup) (ha : a ∈ l) (hb : b ∈ l)
    (kept : ∀ {c d}, c = a ∨ c = b → d = a ∨ d = b → [c, d].Sublist l → [c, d].Sublist l') :
    [a, b].Sublist l' ↔ [a, b].Sublist l := by
  refine ⟨fun after => ?_, kept (.inl rfl) (.inr rfl)⟩
  have ne : a ≠ b := by
    rintro rfl
    exact not_pair_sublist_swap nodup after after
  obtain before | before := pair_sublist_or ha hb ne
  · exact before
  · exact absurd (kept (.inr rfl) (.inl rfl) before) (not_pair_sublist_swap nodup after)

end Order

/-- What becomes of a list of priorities when operations are offered: the new ones among them are put in.
Those that had priorities keep their order, and what is on top stays there. -/
structure Discovers (offered old new : List OperationId) : Prop where
  mem : ∀ id, id ∈ new ↔ id ∈ offered ∨ id ∈ old
  nodup : old.Nodup → new.Nodup
  order : old.Sublist new
  top : new.head? = (old ++ offered).head?

namespace Discovers

variable {offered offered' old new newer : List OperationId} {id : OperationId}

lemma refl : Discovers [] old old :=
  ⟨fun id => by simp, fun h => h, .refl _, by rw [List.append_nil]⟩

lemma trans (h : Discovers offered old new) (h' : Discovers offered' new newer) :
    Discovers (offered ++ offered') old newer where
  mem id := by rw [h'.mem, h.mem, List.mem_append, or_left_comm, or_assoc]
  nodup nodup := h'.nodup (h.nodup nodup)
  order := h.order.trans h'.order
  top := by
    rw [h'.top, List.head?_append, h.top, ← List.head?_append, List.append_assoc]

lemma of_mem (known : id ∈ old) : Discovers [id] old old where
  mem x := by
    rw [List.mem_singleton]
    exact ⟨.inr, by rintro (rfl | h) <;> assumption⟩
  nodup h := h
  order := .refl _
  top := by
    cases old with
    | nil => cases known
    | cons => rfl

lemma of_nil : Discovers [id] [] [id] where
  mem x := by simp
  nodup _ := List.nodup_singleton id
  order := List.nil_sublist _
  top := rfl

/-- An operation gets any priority but the highest. -/
lemma insertIdx {i : Nat} (fresh : id ∉ old) (lt : i < old.length) :
    Discovers [id] old (old.insertIdx (i + 1) id) where
  mem x := by rw [List.mem_insertIdx (Nat.succ_le_of_lt lt), List.mem_singleton]
  nodup nodup := by
    rw [(List.perm_insertIdx _ _ (Nat.succ_le_of_lt lt)).nodup_iff]
    exact List.nodup_cons.mpr ⟨fresh, nodup⟩
  order := List.sublist_insertIdx ..
  top := by
    cases old with
    | nil => cases lt
    | cons => rfl

end Discovers

namespace PctSchedule

variable {g : PctSchedule} {enabled : List Operation} {a b : OperationId}

/-- One operation has a higher priority than another. -/
def Outranks (g : PctSchedule) (a b : OperationId) : Prop := [a, b].Sublist g.prioritized

lemma discovers_discover (g : PctSchedule) (id : OperationId) :
    Discovers [id] g.prioritized (g.discover id).prioritized := by
  rw [discover]
  split
  · next known => exact .of_mem known
  · next fresh =>
    split
    · next first =>
      rw [List.isEmpty_iff.mp first]
      exact .of_nil
    · next others =>
      have pos : 0 < g.prioritized.length :=
        List.length_pos_iff.mpr fun e => others (List.isEmpty_iff.mpr e)
      exact .insertIdx fresh (ChoiceStream.nextIndex_lt pos g.priorityChoices)

lemma discovers_discoverAll (g : PctSchedule) (ops : List Operation) :
    Discovers (ops.map (·.id)) g.prioritized
      (ops.foldl (fun g op => g.discover op.id) g).prioritized := by
  induction ops generalizing g with
  | nil => exact .refl
  | cons op ops ih => exact (g.discovers_discover op.id).trans (ih (g.discover op.id))

/-- What is demoted has a priority, for it would have run. -/
lemma mem_of_demoted? {id : OperationId} (demoted : g.demoted? enabled = some id) :
    id ∈ (enabled.foldl (fun g op => g.discover op.id) g).prioritized := by
  rw [demoted?, due?] at demoted
  split at demoted
  · exact (highest?_eq_some demoted).1
  · cases demoted

lemma mem_next {id : OperationId} :
    id ∈ (g.next enabled).2.prioritized ↔
      id ∈ enabled.map (·.id) ∨ id ∈ g.prioritized := by
  rw [prioritized_next, ← (g.discovers_discoverAll enabled).mem]
  cases demoted : g.demoted? enabled with
  | none => rfl
  | some x => exact mem_demote (mem_of_demoted? demoted)

lemma nodup_next (nodup : g.prioritized.Nodup) : (g.next enabled).2.prioritized.Nodup := by
  have found := (g.discovers_discoverAll enabled).nodup nodup
  rw [prioritized_next]
  cases g.demoted? enabled with
  | none => exact found
  | some x =>
    refine List.Nodup.append (found.filter _) (List.nodup_singleton x) ?_
    rw [List.disjoint_singleton]
    intro mem
    simpa using (List.mem_filter.mp mem).2

/-- A decision keeps the order of two operations unless it demotes one of them. -/
lemma outranks_next (known : g.Outranks a b) (keepsA : g.demoted? enabled ≠ some a)
    (keepsB : g.demoted? enabled ≠ some b) : (g.next enabled).2.Outranks a b := by
  have found := known.trans (g.discovers_discoverAll enabled).order
  rw [Outranks, prioritized_next]
  cases demoted : g.demoted? enabled with
  | none => exact found
  | some x =>
    have both : [a, b].filter (· != x) = [a, b] := by
      rw [demoted] at keepsA keepsB
      refine List.filter_eq_self.mpr fun y mem => ?_
      rw [bne_iff_ne]
      rintro rfl
      obtain rfl | mem := List.mem_cons.mp mem
      · exact keepsA rfl
      · exact keepsB (by rw [List.mem_singleton.mp mem])
    rw [← both]
    exact (found.filter _).trans (List.sublist_append_left _ _)

/-- The answer is what comes first in the list as the decision leaves it. -/
lemma fst_next_eq_ok_iff {id : OperationId} :
    (g.next enabled).1 = .ok id ↔ (g.next enabled).2.highest? enabled = some id := by
  rw [next]
  generalize (enabled.foldl (fun g op => g.discover op.id) g).change enabled = g'
  cases first : g'.highest? enabled with
  | none => simp [first]
  | some x =>
    have same : highest? { g' with steps := g'.steps + 1 } enabled = some x := first
    simp [same]

/-- The demotions that are counted are those of the list. -/
lemma inversions_next :
    (g.next enabled).2.inversions =
      g.inversions + if (g.demoted? enabled).isSome then 1 else 0 := by
  have picked : (g.next enabled).2.inversions =
      ((enabled.foldl (fun g op => g.discover op.id) g).change enabled).inversions := by
    rw [next]
    split <;> rfl
  obtain ⟨prioritized, choices, eq⟩ := exists_discoverAll_eq g enabled
  have before : (enabled.foldl (fun g op => g.discover op.id) g).inversions = g.inversions := by
    rw [eq]
  rw [picked, change_eq, demoted?, ← before]
  generalize enabled.foldl (fun g op => g.discover op.id) g = g'
  cases g'.due? enabled with
  | none =>
    dsimp only
    split <;> rfl
  | some id =>
    dsimp only
    split
    · rfl
    · rw [sampleChangePoints]
      split <;> rfl

lemma prioritized_startIteration (g : PctSchedule) (scheduleLength : Nat) :
    (g.startIteration scheduleLength).prioritized = [] :=
  prioritized_sampleChangePoints

lemma nodup_afterAll (nodup : g.prioritized.Nodup) (offers : List (List Operation)) :
    (g.afterAll offers).prioritized.Nodup := by
  induction offers generalizing g with
  | nil => exact nodup
  | cons enabled offers ih => exact ih (nodup_next nodup)

lemma mem_afterAll {id : OperationId} (offers : List (List Operation)) :
    id ∈ (g.afterAll offers).prioritized ↔
      (∃ ops ∈ offers, id ∈ ops.map (·.id)) ∨ id ∈ g.prioritized := by
  induction offers generalizing g with
  | nil => simp [afterAll]
  | cons enabled offers ih =>
    have rest := ih (g := (g.next enabled).2)
    rw [mem_next] at rest
    refine rest.trans ?_
    rw [List.exists_mem_cons_iff, or_assoc, or_left_comm]

/-- A new operation comes to be on top of others only where the one on top is demoted. -/
lemma demoted?_eq_of_head?_next {id : OperationId} (fresh : id ∉ g.prioritized)
    (others : g.prioritized ≠ []) (top : (g.next enabled).2.prioritized.head? = some id) :
    g.demoted? enabled = g.prioritized.head? := by
  obtain ⟨first, rest, known⟩ := List.exists_cons_of_ne_nil others
  have found := (g.discovers_discoverAll enabled).top
  rw [known, List.cons_append, List.head?_cons] at found
  obtain ⟨rest', found⟩ := List.head?_eq_some_iff.mp found
  rw [prioritized_next, found] at top
  rw [known] at fresh ⊢
  -- Unless the first one is demoted, it is still on top.
  cases demoted : g.demoted? enabled with
  | none =>
    rw [demoted] at top
    cases top
    exact absurd List.mem_cons_self fresh
  | some x =>
    rw [demoted] at top
    by_cases same : first = x
    · rw [same, List.head?_cons]
    · dsimp only at top
      rw [List.filter_cons_of_pos (by simpa using same)] at top
      cases top
      exact absurd List.mem_cons_self fresh

/-- In the course of a run the operations offered so far have priorities, each one. A decision puts in
those that are new, below the top, demotes at most one operation, to the last place, and then runs the
first that it may run. Of two others that were known before the same one has the higher priority after
it. -/
theorem priorities_next (g : PctSchedule) (scheduleLength : Nat) (offers : List (List Operation))
    (enabled : List Operation) :
    let before := (g.startIteration scheduleLength).afterAll offers
    let after := (before.next enabled).2
    let demoted := before.demoted? enabled
    (before.prioritized.Nodup ∧
      ∀ id, id ∈ before.prioritized ↔ ∃ ops ∈ offers, id ∈ ops.map (·.id)) ∧
    (∃ found, Discovers (enabled.map (·.id)) before.prioritized found ∧
      after.prioritized =
        match demoted with
        | some id => found.filter (· != id) ++ [id]
        | none => found) ∧
    (∀ id ∉ before.prioritized, before.prioritized ≠ [] → after.prioritized.head? = some id →
      demoted = before.prioritized.head?) ∧
    (∀ id, (before.next enabled).1 = .ok id ↔
      after.prioritized.find? (fun id => enabled.any (·.id == id)) = some id) ∧
    (∀ a ∈ before.prioritized, ∀ b ∈ before.prioritized, demoted ≠ some a → demoted ≠ some b →
      (after.Outranks a b ↔ before.Outranks a b)) ∧
    after.inversions = before.inversions + if demoted.isSome then 1 else 0 := by
  intro before after demoted
  have start : (g.startIteration scheduleLength).prioritized = [] :=
    g.prioritized_startIteration scheduleLength
  have nodup : before.prioritized.Nodup := nodup_afterAll (by rw [start]; exact List.nodup_nil) offers
  refine ⟨⟨nodup, fun id => ?_⟩, ?_, fun _ => demoted?_eq_of_head?_next,
    fun _ => fst_next_eq_ok_iff, ?_, inversions_next⟩
  · have known : id ∈ before.prioritized ↔ _ := mem_afterAll offers
    rw [start] at known
    simpa using known
  · exact ⟨_, before.discovers_discoverAll enabled, before.prioritized_next enabled⟩
  · intro a memA b memB keepsA keepsB
    refine pair_sublist_iff (nodup_next nodup) memA memB fun {c d} hc hd known => ?_
    refine outranks_next known ?_ ?_
    · rcases hc with rfl | rfl <;> assumption
    · rcases hd with rfl | rfl <;> assumption

end PctSchedule

end Interleaving
