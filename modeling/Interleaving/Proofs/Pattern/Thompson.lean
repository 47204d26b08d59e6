import Interleaving.Proofs.Pattern.Path

/-!
# The automaton of a pattern

Each way to build an automaton is met on its own: which edges it has, that it keeps the shape on
which the numbering of the states relies, and which language it accepts. Their sum is
`Nfa.language_ofPattern`.
-/

namespace Interleaving
open Computability

variable {α : Type} {suits : EventTerm → α → Prop}

/-- The words that a pattern describes. -/
def Pattern.language (suits : EventTerm → α → Prop) : Pattern → Language α
  | .empty => 1
  | .event x => x.language suits
  | .alt l r => l.language suits + r.language suits
  | .seq l r => l.language suits * r.language suits
  | .star p => (p.language suits)∗
  | .maybe p => 1 + p.language suits

namespace Nfa

variable {a l r : Nfa} {s t : Nat} {x : Label} {y : EventTerm}

/-- The words that lead from the first to the last state. -/
def language (suits : EventTerm → α → Prop) (a : Nfa) : Language α :=
  a.paths suits a.initial a.accepting

/-- The shape of a built automaton: it begins in `0`, its accepting state is its last one, and no
edge leads into the first state or out of the last. -/
structure Shaped (a : Nfa) : Prop where
  initial : a.initial = 0
  size : a.size = a.accepting + 1
  pos : 0 < a.accepting
  source : ∀ {s x t}, a.Edge s x t → s < a.accepting
  target : ∀ {s x t}, a.Edge s x t → 0 < t ∧ t ≤ a.accepting

lemma Shaped.target_lt_size (h : a.Shaped) (e : a.Edge s x t) : t < a.size := by
  rw [h.size]
  exact Nat.lt_succ_of_le (h.target e).2

lemma Shaped.language_eq (h : a.Shaped) : a.language suits = a.paths suits 0 a.accepting := by
  rw [language, h.initial]

/-- An automaton that is entered from the first state and left for the last one is a way from the
first to the last state. -/
lemma paths_le_detour {b : Nfa} {n u : Nat} (first : b.Edge 0 .epsilon (0 + n))
    (last : b.Edge (t + n) .epsilon u) (h : ∀ {s x t}, a.Edge s x t → b.Edge (s + n) x (t + n)) :
    a.paths suits 0 t ≤ b.paths suits 0 u :=
  calc a.paths suits 0 t
      ≤ b.paths suits (0 + n) (t + n) := paths_le_embed h
    _ ≤ b.paths suits (0 + n) u := last.le_paths
    _ ≤ b.paths suits 0 u := first.paths_le

section Basic

lemma shaped_basic : (basic x).Shaped where
  initial := rfl
  size := rfl
  pos := Nat.one_pos
  source e := by
    obtain ⟨rfl, -, -⟩ := edge_basic.mp e
    exact Nat.one_pos
  target e := by
    obtain ⟨-, -, rfl⟩ := edge_basic.mp e
    exact ⟨Nat.one_pos, Nat.le_refl 1⟩

lemma language_basic : (basic x).language suits = x.language suits := by
  apply le_antisymm
  · let L (s : Nat) : Language α := if s = 0 then x.language suits else 1
    refine paths_le_labelling (L := L) (le_refl 1) fun {s y t} e => ?_
    obtain ⟨rfl, rfl, rfl⟩ := edge_basic.mp e
    exact (mul_one _).le
  · have e : (basic x).Edge 0 x 1 := edge_basic.mpr ⟨rfl, rfl, rfl⟩
    calc x.language suits = x.language suits * 1 := (mul_one _).symm
      _ ≤ x.language suits * (basic x).paths suits 1 1 := mul_le_mul_right one_le_paths _
      _ ≤ (basic x).paths suits 0 1 := e.mul_paths_le

end Basic

section Alternation

lemma accepting_alternation (hl : l.Shaped) (hr : r.Shaped) :
    (alternation l r).accepting = l.accepting + r.accepting + 3 := by
  have h : (alternation l r).accepting = max (r.size + (l.size + 1)) (l.size + 1) := rfl
  rw [h, hl.size, hr.size]
  omega

/-- An alternation has a first state, the states of both parts, and a last state. -/
lemma cases_alternation (hl : l.Shaped) (hr : r.Shaped) (le : s ≤ (alternation l r).accepting) :
    s = 0 ∨ (∃ s' ≤ l.accepting, s = s' + 1) ∨
      (∃ s' ≤ r.accepting, s = s' + (l.accepting + 2)) ∨ s = l.accepting + r.accepting + 3 := by
  rw [accepting_alternation hl hr] at le
  by_cases first : s = 0
  · exact .inl first
  by_cases left : s ≤ l.accepting + 1
  · exact .inr (.inl ⟨s - 1, by omega, by omega⟩)
  by_cases last : s = l.accepting + r.accepting + 3
  · exact .inr (.inr (.inr last))
  · exact .inr (.inr (.inl ⟨s - (l.accepting + 2), by omega, by omega⟩))

lemma edge_alternation (hl : l.Shaped) (hr : r.Shaped) :
    (alternation l r).Edge s x t ↔
      (s = 0 ∧ x = .epsilon ∧ (t = 1 ∨ t = l.accepting + 2)) ∨
      ((s = l.accepting + 1 ∨ s = r.accepting + (l.accepting + 2)) ∧ x = .epsilon ∧
        t = l.accepting + r.accepting + 3) ∨
      (∃ s' t', s = s' + 1 ∧ t = t' + 1 ∧ l.Edge s' x t') ∨
      (∃ s' t', s = s' + (l.accepting + 2) ∧ t = t' + (l.accepting + 2) ∧ r.Edge s' x t') := by
  have last : max (r.size + (l.size + 1)) (l.size + 1) = l.accepting + r.accepting + 3 :=
    accepting_alternation hl hr
  have edge : (alternation l r).Edge s x t ↔
      (s = r.accepting + (l.size + 1) ∧ x = .epsilon ∧
        t = max (r.size + (l.size + 1)) (l.size + 1)) ∨
      (s = l.accepting + 1 ∧ x = .epsilon ∧ t = max (r.size + (l.size + 1)) (l.size + 1)) ∨
      (s = 0 ∧ x = .epsilon ∧ t = r.initial + (l.size + 1)) ∨
      (s = 0 ∧ x = .epsilon ∧ t = l.initial + 1) ∨
      (r.shifted (l.size + 1)).Edge s x t ∨ (l.shifted 1).Edge s x t := by
    rw [← edge_absorb, ← edge_addEdge, ← edge_addEdge, ← edge_addState, ← edge_addEdge,
      ← edge_addEdge]
    exact Iff.rfl
  rw [edge, edge_shifted, edge_shifted, last, hl.size, hl.initial, hr.initial]
  constructor
  · rintro (⟨rfl, rfl, rfl⟩ | ⟨rfl, rfl, rfl⟩ | ⟨rfl, rfl, rfl⟩ | ⟨rfl, rfl, rfl⟩ | e | e)
    · exact .inr (.inl ⟨.inr rfl, rfl, rfl⟩)
    · exact .inr (.inl ⟨.inl rfl, rfl, rfl⟩)
    · exact .inl ⟨rfl, rfl, .inr (by omega)⟩
    · exact .inl ⟨rfl, rfl, .inl rfl⟩
    · exact .inr (.inr (.inr e))
    · exact .inr (.inr (.inl e))
  · rintro (⟨rfl, rfl, rfl | rfl⟩ | ⟨rfl | rfl, rfl, rfl⟩ | e | e)
    · exact .inr (.inr (.inr (.inl ⟨rfl, rfl, rfl⟩)))
    · exact .inr (.inr (.inl ⟨rfl, rfl, by omega⟩))
    · exact .inr (.inl ⟨rfl, rfl, rfl⟩)
    · exact .inl ⟨rfl, rfl, rfl⟩
    · exact .inr (.inr (.inr (.inr (.inr e))))
    · exact .inr (.inr (.inr (.inr (.inl e))))

lemma shaped_alternation (hl : l.Shaped) (hr : r.Shaped) : (alternation l r).Shaped where
  initial := rfl
  size := rfl
  pos := by
    rw [accepting_alternation hl hr]
    omega
  source e := by
    rw [accepting_alternation hl hr]
    obtain ⟨rfl, -, -⟩ | ⟨rfl | rfl, -, -⟩ | ⟨s', t', rfl, -, e'⟩ | ⟨s', t', rfl, -, e'⟩ :=
      (edge_alternation hl hr).mp e
    · omega
    · omega
    · omega
    · have := hl.source e'
      omega
    · have := hr.source e'
      omega
  target e := by
    rw [accepting_alternation hl hr]
    obtain ⟨-, -, rfl | rfl⟩ | ⟨-, -, rfl⟩ | ⟨s', t', -, rfl, e'⟩ | ⟨s', t', -, rfl, e'⟩ :=
      (edge_alternation hl hr).mp e
    · omega
    · omega
    · omega
    · have := hl.target e'
      omega
    · have := hr.target e'
      omega

lemma language_alternation_le (hl : l.Shaped) (hr : r.Shaped) :
    (alternation l r).language suits ≤ l.language suits + r.language suits := by
  -- In either part a state has the words that it has there, and nothing is left in the last one.
  let L (s : Nat) : Language α :=
    if s = 0 then l.language suits + r.language suits
    else if s < l.accepting + 2 then l.paths suits (s - 1) l.accepting
    else if s < l.accepting + r.accepting + 3 then
      r.paths suits (s - (l.accepting + 2)) r.accepting
    else 1
  have left {s : Nat} (h : s ≤ l.accepting) : L (s + 1) = l.paths suits s l.accepting := by
    simp only [L]
    rw [if_neg (by omega), if_pos (by omega), Nat.add_sub_cancel]
  have right {s : Nat} (h : s ≤ r.accepting) :
      L (s + (l.accepting + 2)) = r.paths suits s r.accepting := by
    simp only [L]
    rw [if_neg (by omega), if_neg (by omega), if_pos (by omega), Nat.add_sub_cancel]
  have last : L (l.accepting + r.accepting + 3) = 1 := by
    simp only [L]
    rw [if_neg (by omega), if_neg (by omega), if_neg (by omega)]
  rw [(shaped_alternation hl hr).language_eq, accepting_alternation hl hr]
  refine paths_le_labelling (L := L) last.ge fun {s x t} e => ?_
  obtain ⟨rfl, rfl, rfl | rfl⟩ | ⟨rfl | rfl, rfl, rfl⟩ | ⟨s', t', rfl, rfl, e'⟩ |
    ⟨s', t', rfl, rfl, e'⟩ := (edge_alternation hl hr).mp e
  · rw [Label.language, one_mul, left (Nat.zero_le _), ← hl.language_eq]
    exact le_sup_left
  · have zero := right (Nat.zero_le _)
    rw [Nat.zero_add] at zero
    rw [Label.language, one_mul, zero, ← hr.language_eq]
    exact le_sup_right
  · rw [Label.language, one_mul, last, left (Nat.le_refl _)]
    exact one_le_paths
  · rw [Label.language, one_mul, last, right (Nat.le_refl _)]
    exact one_le_paths
  · rw [left (hl.target e').2, left (hl.source e').le]
    exact e'.mul_paths_le
  · rw [right (hr.target e').2, right (hr.source e').le]
    exact e'.mul_paths_le

lemma le_language_alternation (hl : l.Shaped) (hr : r.Shaped) :
    l.language suits + r.language suits ≤ (alternation l r).language suits := by
  rw [(shaped_alternation hl hr).language_eq, accepting_alternation hl hr]
  have edge {s x t} := (edge_alternation (s := s) (x := x) (t := t) hl hr).mpr
  apply add_le
  · rw [hl.language_eq]
    refine paths_le_detour (n := 1) ?_ ?_ fun e => ?_
    · exact edge (.inl ⟨rfl, rfl, .inl rfl⟩)
    · exact edge (.inr (.inl ⟨.inl rfl, rfl, rfl⟩))
    · exact edge (.inr (.inr (.inl ⟨_, _, rfl, rfl, e⟩)))
  · rw [hr.language_eq]
    refine paths_le_detour (n := l.accepting + 2) ?_ ?_ fun e => ?_
    · exact edge (.inl ⟨rfl, rfl, .inr (Nat.zero_add _)⟩)
    · exact edge (.inr (.inl ⟨.inr rfl, rfl, rfl⟩))
    · exact edge (.inr (.inr (.inr ⟨_, _, rfl, rfl, e⟩)))

lemma language_alternation (hl : l.Shaped) (hr : r.Shaped) :
    (alternation l r).language suits = l.language suits + r.language suits :=
  le_antisymm (language_alternation_le hl hr) (le_language_alternation hl hr)

end Alternation

section Concatenation

lemma accepting_concatenation (hl : l.Shaped) :
    (concatenation l r).accepting = r.accepting + l.accepting := by
  have h : (concatenation l r).accepting = r.accepting + (l.size - 1) := rfl
  rw [h, hl.size, Nat.add_sub_cancel]

/-- A concatenation has the states of both parts, and the joint in both. -/
lemma cases_concatenation (hl : l.Shaped) (le : s ≤ (concatenation l r).accepting) :
    s ≤ l.accepting ∨ ∃ s' ≤ r.accepting, s = s' + l.accepting := by
  rw [accepting_concatenation hl] at le
  by_cases left : s ≤ l.accepting
  · exact .inl left
  · exact .inr ⟨s - l.accepting, by omega, by omega⟩

lemma edge_concatenation (hl : l.Shaped) :
    (concatenation l r).Edge s x t ↔ l.Edge s x t ∨
      ∃ s' t', s = s' + l.accepting ∧ t = t' + l.accepting ∧ r.Edge s' x t' := by
  have edge : (concatenation l r).Edge s x t ↔
      (r.shifted (l.size - 1)).Edge s x t ∨ l.Edge s x t := edge_absorb
  rw [edge, edge_shifted, hl.size, Nat.add_sub_cancel, or_comm]

lemma shaped_concatenation (hl : l.Shaped) (hr : r.Shaped) : (concatenation l r).Shaped where
  initial := hl.initial
  size := by
    have h : (concatenation l r).size = max (r.size + (l.size - 1)) l.size := rfl
    rw [h, accepting_concatenation hl, hl.size, hr.size]
    omega
  pos := by
    rw [accepting_concatenation hl]
    exact Nat.add_pos_left hr.pos _
  source e := by
    rw [accepting_concatenation hl]
    obtain e | ⟨s', t', rfl, -, e'⟩ := (edge_concatenation hl).mp e
    · have := hl.source e
      omega
    · have := hr.source e'
      omega
  target e := by
    rw [accepting_concatenation hl]
    obtain e | ⟨s', t', -, rfl, e'⟩ := (edge_concatenation hl).mp e
    · have := hl.target e
      omega
    · have := hr.target e'
      omega

lemma language_concatenation_le (hl : l.Shaped) (hr : r.Shaped) :
    (concatenation l r).language suits ≤ l.language suits * r.language suits := by
  -- Before the joint a state still has all of the right part before it.
  let L (s : Nat) : Language α :=
    if s < l.accepting then l.paths suits s l.accepting * r.language suits
    else r.paths suits (s - l.accepting) r.accepting
  have left {s : Nat} (h : s < l.accepting) :
      L s = l.paths suits s l.accepting * r.language suits := if_pos h
  have right (s : Nat) : L (s + l.accepting) = r.paths suits s r.accepting := by
    simp only [L]
    rw [if_neg (by omega), Nat.add_sub_cancel]
  have joint {s : Nat} (h : s ≤ l.accepting) :
      L s ≤ l.paths suits s l.accepting * r.language suits := by
    obtain h | rfl := Nat.lt_or_eq_of_le h
    · exact (left h).le
    · have zero := right 0
      rw [Nat.zero_add, ← hr.language_eq] at zero
      calc L l.accepting = 1 * r.language suits := by rw [zero, one_mul]
        _ ≤ _ := mul_le_mul_left one_le_paths _
  rw [(shaped_concatenation hl hr).language_eq, accepting_concatenation hl, hl.language_eq,
    ← left hl.pos]
  refine paths_le_labelling (L := L) ?_ fun {s x t} e => ?_
  · rw [right]
    exact one_le_paths
  · obtain e | ⟨s', t', rfl, rfl, e'⟩ := (edge_concatenation hl).mp e
    · calc x.language suits * L t
          ≤ x.language suits * (l.paths suits t l.accepting * r.language suits) :=
            mul_le_mul_right (joint (hl.target e).2) _
        _ = x.language suits * l.paths suits t l.accepting * r.language suits :=
            (mul_assoc ..).symm
        _ ≤ l.paths suits s l.accepting * r.language suits :=
            mul_le_mul_left e.mul_paths_le _
        _ = L s := (left (hl.source e)).symm
    · rw [right, right]
      exact e'.mul_paths_le

lemma le_language_concatenation (hl : l.Shaped) (hr : r.Shaped) :
    l.language suits * r.language suits ≤ (concatenation l r).language suits := by
  rw [(shaped_concatenation hl hr).language_eq, accepting_concatenation hl, hl.language_eq,
    hr.language_eq]
  have left : l.paths suits 0 l.accepting ≤
      (concatenation l r).paths suits 0 (0 + l.accepting) := by
    rw [Nat.zero_add]
    exact paths_le_embed (n := 0) fun e => (edge_concatenation hl).mpr (.inl e)
  have right : r.paths suits 0 r.accepting ≤
      (concatenation l r).paths suits (0 + l.accepting) (r.accepting + l.accepting) :=
    paths_le_embed fun e => (edge_concatenation hl).mpr (.inr ⟨_, _, rfl, rfl, e⟩)
  exact (mul_le_mul' left right).trans paths_mul_le

lemma language_concatenation (hl : l.Shaped) (hr : r.Shaped) :
    (concatenation l r).language suits = l.language suits * r.language suits :=
  le_antisymm (language_concatenation_le hl hr) (le_language_concatenation hl hr)

end Concatenation

section Star

lemma accepting_star (h : a.Shaped) : (star a).accepting = a.accepting + 2 := by
  have h' : (star a).accepting = a.size + 1 := rfl
  rw [h', h.size]

/-- A repetition has a first state, the states of what is repeated, and a last state. -/
lemma cases_star (h : a.Shaped) (le : s ≤ (star a).accepting) :
    s = 0 ∨ (∃ s' ≤ a.accepting, s = s' + 1) ∨ s = a.accepting + 2 := by
  rw [accepting_star h] at le
  by_cases first : s = 0
  · exact .inl first
  by_cases last : s = a.accepting + 2
  · exact .inr (.inr last)
  · exact .inr (.inl ⟨s - 1, by omega, by omega⟩)

lemma edge_star (h : a.Shaped) :
    (star a).Edge s x t ↔
      ((s = 0 ∨ s = a.accepting + 1) ∧ x = .epsilon ∧ (t = 1 ∨ t = a.accepting + 2)) ∨
      ∃ s' t', s = s' + 1 ∧ t = t' + 1 ∧ a.Edge s' x t' := by
  have edge : (star a).Edge s x t ↔
      (s = 0 ∧ x = .epsilon ∧ t = a.size + 1) ∨
      (s = a.accepting + 1 ∧ x = .epsilon ∧ t = a.size + 1) ∨
      (s = 0 ∧ x = .epsilon ∧ t = a.initial + 1) ∨
      (s = a.accepting + 1 ∧ x = .epsilon ∧ t = a.initial + 1) ∨
      (a.shifted 1).Edge s x t := by
    rw [← edge_addState, ← edge_addEdge, ← edge_addEdge, ← edge_addEdge, ← edge_addEdge]
    exact Iff.rfl
  rw [edge, edge_shifted, h.size, h.initial]
  constructor
  · rintro (⟨rfl, rfl, rfl⟩ | ⟨rfl, rfl, rfl⟩ | ⟨rfl, rfl, rfl⟩ | ⟨rfl, rfl, rfl⟩ | e)
    · exact .inl ⟨.inl rfl, rfl, .inr rfl⟩
    · exact .inl ⟨.inr rfl, rfl, .inr rfl⟩
    · exact .inl ⟨.inl rfl, rfl, .inl rfl⟩
    · exact .inl ⟨.inr rfl, rfl, .inl rfl⟩
    · exact .inr e
  · rintro (⟨rfl | rfl, rfl, rfl | rfl⟩ | e)
    · exact .inr (.inr (.inl ⟨rfl, rfl, rfl⟩))
    · exact .inl ⟨rfl, rfl, rfl⟩
    · exact .inr (.inr (.inr (.inl ⟨rfl, rfl, rfl⟩)))
    · exact .inr (.inl ⟨rfl, rfl, rfl⟩)
    · exact .inr (.inr (.inr (.inr e)))

lemma shaped_star (h : a.Shaped) : (star a).Shaped where
  initial := rfl
  size := rfl
  pos := Nat.succ_pos _
  source e := by
    rw [accepting_star h]
    obtain ⟨rfl | rfl, -, -⟩ | ⟨s', t', rfl, -, e'⟩ := (edge_star h).mp e
    · omega
    · omega
    · have := h.source e'
      omega
  target e := by
    rw [accepting_star h]
    obtain ⟨-, -, rfl | rfl⟩ | ⟨s', t', -, rfl, e'⟩ := (edge_star h).mp e
    · omega
    · omega
    · have := h.target e'
      omega

lemma language_star_le (h : a.Shaped) : (star a).language suits ≤ (a.language suits)∗ := by
  -- Inside the automaton a state has to finish the present round, and more rounds may follow.
  let L (s : Nat) : Language α :=
    if s = 0 then (a.language suits)∗
    else if s < a.accepting + 2 then a.paths suits (s - 1) a.accepting * (a.language suits)∗
    else 1
  have inner {s : Nat} (hs : s ≤ a.accepting) :
      L (s + 1) = a.paths suits s a.accepting * (a.language suits)∗ := by
    simp only [L]
    rw [if_neg (by omega), if_pos (by omega), Nat.add_sub_cancel]
  have last : L (a.accepting + 2) = 1 := by
    simp only [L]
    rw [if_neg (by omega), if_neg (by omega)]
  have round : L 1 ≤ (a.language suits)∗ := by
    rw [inner (Nat.zero_le _), ← h.language_eq]
    exact mul_kstar_le_kstar
  have finish : (a.language suits)∗ ≤ L (a.accepting + 1) := by
    rw [inner (Nat.le_refl _)]
    calc (a.language suits)∗ = 1 * (a.language suits)∗ := (one_mul _).symm
      _ ≤ _ := mul_le_mul_left one_le_paths _
  rw [(shaped_star h).language_eq, accepting_star h]
  refine paths_le_labelling (L := L) last.ge fun {s x t} e => ?_
  obtain ⟨hs, rfl, ht⟩ | ⟨s', t', rfl, rfl, e'⟩ := (edge_star h).mp e
  · have enter : L t ≤ (a.language suits)∗ := by
      obtain rfl | rfl := ht
      · exact round
      · exact last.trans_le one_le_kstar
    rw [Label.language, one_mul]
    obtain rfl | rfl := hs
    · exact enter
    · exact enter.trans finish
  · rw [inner (h.target e').2, inner (h.source e').le, ← mul_assoc]
    exact mul_le_mul_left e'.mul_paths_le _

lemma le_language_star (h : a.Shaped) : (a.language suits)∗ ≤ (star a).language suits := by
  rw [(shaped_star h).language_eq, accepting_star h, h.language_eq]
  have edge {s x t} := (edge_star (s := s) (x := x) (t := t) h).mpr
  have pass {s : Nat} (hs : s = 0 ∨ s = a.accepting + 1) :
      1 ≤ (star a).paths suits s (a.accepting + 2) :=
    one_le_paths.trans (edge (.inl ⟨hs, rfl, .inr rfl⟩)).le_paths
  -- One more round can be put before whatever follows the end of a round.
  have round {s : Nat} (hs : s = 0 ∨ s = a.accepting + 1) :
      a.paths suits 0 a.accepting * (star a).paths suits (a.accepting + 1) (a.accepting + 2) ≤
        (star a).paths suits s (a.accepting + 2) := by
    have inner : a.paths suits 0 a.accepting ≤
        (star a).paths suits (0 + 1) (a.accepting + 1) :=
      paths_le_embed fun e => edge (.inr ⟨_, _, rfl, rfl, e⟩)
    calc _ ≤ (star a).paths suits (0 + 1) (a.accepting + 1) *
          (star a).paths suits (a.accepting + 1) (a.accepting + 2) := mul_le_mul_left inner _
      _ ≤ (star a).paths suits (0 + 1) (a.accepting + 2) := paths_mul_le
      _ ≤ (star a).paths suits s (a.accepting + 2) :=
          (edge (.inl ⟨hs, rfl, .inl rfl⟩)).paths_le
  have rounds := kstar_le_of_mul_le_right (pass (.inr rfl)) (round (.inr rfl))
  rw [← one_add_mul_kstar]
  apply add_le
  · exact pass (.inl rfl)
  · exact (mul_le_mul_right rounds _).trans (round (.inl rfl))

lemma language_star (h : a.Shaped) : (star a).language suits = (a.language suits)∗ :=
  le_antisymm (language_star_le h) (le_language_star h)

end Star

lemma shaped_ofPattern (p : Pattern) : (ofPattern p).Shaped := by
  induction p with
  | empty => exact shaped_basic
  | event _ => exact shaped_basic
  | alt l r ihl ihr => exact shaped_alternation ihl ihr
  | seq l r ihl ihr => exact shaped_concatenation ihl ihr
  | star p ih => exact shaped_star ih
  | maybe p ih => exact shaped_alternation shaped_basic ih

/-- The automaton of a pattern accepts the words that the pattern describes. -/
lemma language_ofPattern (p : Pattern) : (ofPattern p).language suits = p.language suits := by
  induction p with
  | empty => exact language_basic
  | event _ => exact language_basic
  | alt l r ihl ihr =>
    show (alternation (ofPattern l) (ofPattern r)).language suits = _
    rw [language_alternation (shaped_ofPattern l) (shaped_ofPattern r), ihl, ihr]
    rfl
  | seq l r ihl ihr =>
    show (concatenation (ofPattern l) (ofPattern r)).language suits = _
    rw [language_concatenation (shaped_ofPattern l) (shaped_ofPattern r), ihl, ihr]
    rfl
  | star p ih =>
    show (Nfa.star (ofPattern p)).language suits = _
    rw [language_star (shaped_ofPattern p), ih]
    rfl
  | maybe p ih =>
    show (alternation (basic .epsilon) (ofPattern p)).language suits = _
    rw [language_alternation shaped_basic (shaped_ofPattern p), language_basic, ih]
    rfl

section Terms

/-- Some edge has this term on it. -/
def HasTerm (a : Nfa) (y : EventTerm) : Prop := ∃ s t, a.Edge s (.event y) t

lemma hasTerm_basic : (basic x).HasTerm y ↔ x = .event y := by
  simp [HasTerm, edge_basic, eq_comm]

lemma hasTerm_alternation (hl : l.Shaped) (hr : r.Shaped) :
    (alternation l r).HasTerm y ↔ l.HasTerm y ∨ r.HasTerm y := by
  simp only [HasTerm, edge_alternation hl hr]
  constructor
  · rintro ⟨s, t, ⟨-, h, -⟩ | ⟨-, h, -⟩ | ⟨s', t', -, -, e⟩ | ⟨s', t', -, -, e⟩⟩
    · cases h
    · cases h
    · exact .inl ⟨s', t', e⟩
    · exact .inr ⟨s', t', e⟩
  · rintro (⟨s, t, e⟩ | ⟨s, t, e⟩)
    · exact ⟨_, _, .inr (.inr (.inl ⟨s, t, rfl, rfl, e⟩))⟩
    · exact ⟨_, _, .inr (.inr (.inr ⟨s, t, rfl, rfl, e⟩))⟩

lemma hasTerm_concatenation (hl : l.Shaped) :
    (concatenation l r).HasTerm y ↔ l.HasTerm y ∨ r.HasTerm y := by
  simp only [HasTerm, edge_concatenation hl]
  constructor
  · rintro ⟨s, t, e | ⟨s', t', -, -, e⟩⟩
    · exact .inl ⟨s, t, e⟩
    · exact .inr ⟨s', t', e⟩
  · rintro (⟨s, t, e⟩ | ⟨s, t, e⟩)
    · exact ⟨s, t, .inl e⟩
    · exact ⟨_, _, .inr ⟨s, t, rfl, rfl, e⟩⟩

lemma hasTerm_star (h : a.Shaped) : (star a).HasTerm y ↔ a.HasTerm y := by
  simp only [HasTerm, edge_star h]
  constructor
  · rintro ⟨s, t, ⟨-, h, -⟩ | ⟨s', t', -, -, e⟩⟩
    · cases h
    · exact ⟨s', t', e⟩
  · rintro ⟨s, t, e⟩
    exact ⟨_, _, .inr ⟨s, t, rfl, rfl, e⟩⟩

lemma hasTerm_ofPattern (p : Pattern) : (ofPattern p).HasTerm y ↔ y ∈ p.terms := by
  induction p with
  | empty => exact hasTerm_basic.trans (by simp [Pattern.terms])
  | event x => exact hasTerm_basic.trans (by simp [Pattern.terms, eq_comm])
  | alt l r ihl ihr =>
    rw [Pattern.terms, List.mem_append, ← ihl, ← ihr]
    exact hasTerm_alternation (shaped_ofPattern l) (shaped_ofPattern r)
  | seq l r ihl ihr =>
    rw [Pattern.terms, List.mem_append, ← ihl, ← ihr]
    exact hasTerm_concatenation (shaped_ofPattern l)
  | star p ih =>
    rw [Pattern.terms, ← ih]
    exact hasTerm_star (shaped_ofPattern p)
  | maybe p ih =>
    rw [Pattern.terms, ← ih]
    exact (hasTerm_alternation shaped_basic (shaped_ofPattern p)).trans
      (by simp [hasTerm_basic])

end Terms

end Nfa

end Interleaving
