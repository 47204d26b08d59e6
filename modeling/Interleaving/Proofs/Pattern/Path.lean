import Mathlib
import Interleaving.Pattern.Nfa

/-!
# Edges and paths of an automaton

`Nfa.Edge` reads the edge map of an automaton as a relation, and for every way to build an automaton
says which edges the result has. `Nfa.Path` strings edges together. The letters of a path may be of
any type `α`: `suits` says which of them a term takes.
-/

namespace Interleaving
open Computability

variable {α : Type} {suits : EventTerm → α → Prop}

/-- The one-letter words that a term takes. -/
def EventTerm.language (suits : EventTerm → α → Prop) (x : EventTerm) : Language α :=
  {w | ∃ e, suits x e ∧ w = [e]}

/-- The words with which an edge is passed. -/
def Label.language (suits : EventTerm → α → Prop) : Label → Language α
  | .epsilon => 1
  | .event x => x.language suits

namespace Nfa

variable {a b : Nfa} {s t u n : Nat} {x : Label}

/-- An edge with the label `x` leads from `s` to `t`. -/
def Edge (a : Nfa) (s : Nat) (x : Label) (t : Nat) : Prop := (t, x) ∈ a.outgoing s

lemma mem_addTo {outs : List (Nat × Label)} {e e' : Nat × Label} :
    e ∈ addTo outs e' ↔ e = e' ∨ e ∈ outs := by
  simp only [addTo]
  split
  · next h =>
    constructor
    · exact .inr
    · rintro (rfl | he)
      · exact h
      · exact he
  · simp [or_comm]

lemma mem_foldl_addTo {outs present : List (Nat × Label)} {e : Nat × Label} :
    e ∈ outs.foldl addTo present ↔ e ∈ present ∨ e ∈ outs := by
  induction outs generalizing present with
  | nil => simp
  | cons o outs ih =>
    rw [List.foldl_cons, ih, mem_addTo, List.mem_cons, or_assoc, or_left_comm]

lemma edge_iff_get? : a.Edge s x t ↔ ∃ outs, a.edges.get? s = some outs ∧ (t, x) ∈ outs := by
  rw [Edge, outgoing]
  cases a.edges.get? s <;> simp

lemma edge_addEdge {p q : Nat} {y : Label} :
    (a.addEdge p q y).Edge s x t ↔ (s = p ∧ x = y ∧ t = q) ∨ a.Edge s x t := by
  rw [Edge, outgoing, addEdge, SortedMap.get?_alter]
  split
  · next h =>
    subst h
    rw [Option.getD_some, mem_addTo, Prod.mk.injEq]
    simp [Edge, outgoing, and_comm]
  · next h => simp [Edge, outgoing, h]

lemma edge_basic {y : Label} : (basic y).Edge s x t ↔ s = 0 ∧ x = y ∧ t = 1 := by
  rw [basic, edge_addEdge]
  simp [edge_iff_get?]

lemma edge_addState : a.addState.Edge s x t ↔ a.Edge s x t := Iff.rfl

lemma edge_shifted :
    (a.shifted n).Edge s x t ↔ ∃ s' t', s = s' + n ∧ t = t' + n ∧ a.Edge s' x t' := by
  have mem (i : Nat) (outs : List (Nat × Label)) :
      (a.shifted n).edges.get? i = some outs ↔ ∃ s' outs', a.edges.get? s' = some outs' ∧
        i = s' + n ∧ outs = outs'.map fun e => (e.1 + n, e.2) := by
    rw [← SortedMap.mem_toList_iff (e := (i, outs)), shifted, List.mem_map]
    constructor
    · rintro ⟨e, he, h⟩
      obtain ⟨rfl, rfl⟩ := Prod.mk.inj h
      exact ⟨e.1, e.2, SortedMap.mem_toList_iff.mp he, rfl, rfl⟩
    · rintro ⟨s', outs', h, rfl, rfl⟩
      exact ⟨(s', outs'), SortedMap.mem_toList_iff.mpr h, rfl⟩
  rw [edge_iff_get?]
  constructor
  · rintro ⟨outs, h, ht⟩
    obtain ⟨s', outs', h', rfl, rfl⟩ := (mem _ _).mp h
    obtain ⟨e, he, h⟩ := List.mem_map.mp ht
    obtain ⟨rfl, rfl⟩ := Prod.mk.inj h
    exact ⟨s', e.1, rfl, rfl, edge_iff_get?.mpr ⟨outs', h', he⟩⟩
  · rintro ⟨s', t', rfl, rfl, h⟩
    obtain ⟨outs, h, ht⟩ := edge_iff_get?.mp h
    exact ⟨_, (mem _ _).mpr ⟨s', outs, h, rfl, rfl⟩, List.mem_map.mpr ⟨(t', x), ht, rfl⟩⟩

lemma edge_absorb : (a.absorb b).Edge s x t ↔ a.Edge s x t ∨ b.Edge s x t := by
  have mem (es : List (Nat × List (Nat × Label))) :
      (t, x) ∈ ((es.foldr (fun e m => m.alter e.1 fun present =>
        e.2.foldl addTo (present.getD [])) a.edges).get? s).getD [] ↔
      a.Edge s x t ∨ ∃ outs, (s, outs) ∈ es ∧ (t, x) ∈ outs := by
    induction es with
    | nil => simp [Edge, outgoing]
    | cons e es ih =>
      obtain ⟨i, outs⟩ := e
      rw [List.foldr_cons, SortedMap.get?_alter]
      split
      · next h =>
        subst h
        rw [Option.getD_some, mem_foldl_addTo, ih, or_assoc]
        simp only [List.mem_cons, Prod.mk.injEq, true_and, or_and_right, exists_or,
          exists_eq_left, or_comm]
      · next h =>
        rw [ih]
        simp [h]
  refine (mem b.edges.toList).trans ?_
  rw [edge_iff_get? (a := b)]
  simp only [SortedMap.mem_toList_iff]

lemma mem_transitions {e : Transition} :
    e ∈ a.transitions ↔ a.Edge e.source e.label e.target := by
  obtain ⟨s, t, x⟩ := e
  simp only [transitions, List.mem_flatMap, List.mem_map, edge_iff_get?]
  constructor
  · rintro ⟨es, hes, o, ho, h⟩
    cases h
    exact ⟨es.2, SortedMap.mem_toList_iff.mp hes, ho⟩
  · rintro ⟨outs, h, ht⟩
    exact ⟨(s, outs), SortedMap.mem_toList_iff.mpr h, (t, x), ht, rfl⟩

/-- Edges in a row lead from one state to another, and the words of their labels make up a word. -/
inductive Path (suits : EventTerm → α → Prop) (a : Nfa) : Nat → List α → Nat → Prop where
  | nil {s : Nat} :
    Path suits a s [] s
  | cons {s t u : Nat} {x : Label} {v w : List α} :
    a.Edge s x t →
    v ∈ x.language suits →
    Path suits a t w u →
    Path suits a s (v ++ w) u

/-- The words of the paths from one state to another. -/
def paths (suits : EventTerm → α → Prop) (a : Nfa) (s t : Nat) : Language α :=
  {w | Path suits a s w t}

lemma Path.append {v w : List α} (p : Path suits a s v t) (q : Path suits a t w u) :
    Path suits a s (v ++ w) u := by
  induction p with
  | nil => exact q
  | cons e hv _ ih =>
    rw [List.append_assoc]
    exact .cons e hv (ih q)

lemma Path.embed {w : List α} (h : ∀ {s x t}, a.Edge s x t → b.Edge (s + n) x (t + n))
    (p : Path suits a s w t) : Path suits b (s + n) w (t + n) := by
  induction p with
  | nil => exact .nil
  | cons e hv _ ih => exact .cons (h e) hv ih

lemma one_le_paths : 1 ≤ a.paths suits s s := by
  intro w h
  cases (Language.mem_one w).mp h
  exact .nil

lemma paths_mul_le : a.paths suits s t * a.paths suits t u ≤ a.paths suits s u := by
  intro w h
  obtain ⟨v, hv, w, hw, rfl⟩ := Language.mem_mul.mp h
  exact hv.append hw

lemma Edge.mul_paths_le (e : a.Edge s x t) :
    x.language suits * a.paths suits t u ≤ a.paths suits s u := by
  intro w h
  obtain ⟨v, hv, w, hw, rfl⟩ := Language.mem_mul.mp h
  exact .cons e hv hw

lemma Edge.paths_le (e : a.Edge s .epsilon t) : a.paths suits t u ≤ a.paths suits s u := by
  have h : Label.language suits .epsilon * a.paths suits t u ≤ a.paths suits s u := e.mul_paths_le
  rwa [Label.language, one_mul] at h

lemma Edge.le_paths (e : a.Edge t .epsilon u) : a.paths suits s t ≤ a.paths suits s u := by
  have h : 1 ≤ a.paths suits t u := one_le_paths.trans e.paths_le
  calc a.paths suits s t
      = a.paths suits s t * 1 := (mul_one _).symm
    _ ≤ a.paths suits s t * a.paths suits t u := mul_le_mul_right h _
    _ ≤ a.paths suits s u := paths_mul_le

lemma paths_le_embed (h : ∀ {s x t}, a.Edge s x t → b.Edge (s + n) x (t + n)) :
    a.paths suits s t ≤ b.paths suits (s + n) (t + n) :=
  fun _ p => Path.embed h p

/-- A state has no more words than a labelling of the states by languages gives it, if no edge
leads to a state whose language is larger than the edge allows. -/
lemma paths_le_labelling {L : Nat → Language α} (last : 1 ≤ L u)
    (edge : ∀ {s x t}, a.Edge s x t → x.language suits * L t ≤ L s) :
    a.paths suits s u ≤ L s := by
  intro w p
  -- The labelling of each state on the path holds the word from there on.
  induction p with
  | nil => exact last ((Language.mem_one _).mpr rfl)
  | cons e hv _ ih => exact edge e (Language.append_mem_mul hv (ih last))

end Nfa

end Interleaving
