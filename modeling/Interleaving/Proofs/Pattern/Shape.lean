import Interleaving.Proofs.Pattern.Dead

/-!
# The shape of built automata

The parts of an automaton are numbered one after the other, and a sequence lays two states over each
other without looking at their edges. This is right as long as nothing leads into a first state or out of
a last one, which every way to build an automaton keeps (`Nfa.Shaped`). Each of them also keeps that all
states are entered from the first, and says how many states there are. `Nfa.shape_ofPattern` puts the
parts together.
-/

namespace Interleaving

/-- The number of states that the parts of a pattern ask for. The parts of a sequence share one. -/
def Pattern.stateCount : Pattern → Nat
  | .empty => 2
  | .event _ => 2
  | .alt l r => l.stateCount + r.stateCount + 2
  | .seq l r => l.stateCount + r.stateCount - 1
  | .star p => p.stateCount + 2
  | .maybe p => p.stateCount + 4

namespace Nfa

variable {α : Type} {suits : EventTerm → α → Prop}
variable {a b l r : Nfa} {s t n : Nat} {x : Label}

/-- An edge leads from `s` to `t`, whatever it asks for. -/
def Joins (a : Nfa) (s t : Nat) : Prop := ∃ x, a.Edge s x t

/-- Edges in a row lead from `s` to `t`, whatever they ask for. -/
def Leads (a : Nfa) : Nat → Nat → Prop := Relation.ReflTransGen a.Joins

lemma Edge.leads (e : a.Edge s x t) : a.Leads s t := .single ⟨x, e⟩

lemma Path.leads {w : List α} (p : Path suits a s w t) : a.Leads s t := by
  induction p with
  | nil => exact .refl
  | cons e _ _ ih => exact .head ⟨_, e⟩ ih

lemma Leads.embed (h : ∀ {s x t}, a.Edge s x t → b.Edge (s + n) x (t + n)) (way : a.Leads s t) :
    b.Leads (s + n) (t + n) := by
  have joins : ∀ s t, a.Joins s t → b.Joins (s + n) (t + n) := fun _ _ ⟨x, e⟩ => ⟨x, h e⟩
  exact Relation.ReflTransGen.lift (· + n) joins _ _ way

/-- Every state is entered from the first one. -/
def Entered (a : Nfa) : Prop := ∀ s ≤ a.accepting, a.Leads 0 s

lemma entered_basic : (basic x).Entered := by
  intro s le
  have last : (basic x).accepting = 1 := rfl
  rw [last] at le
  obtain rfl | rfl : s = 0 ∨ s = 1 := by omega
  · exact .refl
  · exact (edge_basic.mpr ⟨rfl, rfl, rfl⟩).leads

lemma entered_alternation (hl : l.Shaped) (hr : r.Shaped) (el : l.Entered) (er : r.Entered) :
    (alternation l r).Entered := by
  have edge {s x t} := (edge_alternation (s := s) (x := x) (t := t) hl hr).mpr
  have inLeft {s : Nat} (le : s ≤ l.accepting) : (alternation l r).Leads 0 (s + 1) := by
    have way : (alternation l r).Leads (0 + 1) (s + 1) :=
      (el s le).embed fun e => edge (.inr (.inr (.inl ⟨_, _, rfl, rfl, e⟩)))
    exact .head ⟨_, edge (.inl ⟨rfl, rfl, .inl rfl⟩)⟩ way
  have inRight {s : Nat} (le : s ≤ r.accepting) :
      (alternation l r).Leads 0 (s + (l.accepting + 2)) := by
    have way : (alternation l r).Leads (0 + (l.accepting + 2)) (s + (l.accepting + 2)) :=
      (er s le).embed fun e => edge (.inr (.inr (.inr ⟨_, _, rfl, rfl, e⟩)))
    exact .head ⟨_, edge (.inl ⟨rfl, rfl, .inr (Nat.zero_add _)⟩)⟩ way
  intro s le
  obtain rfl | ⟨s', le', rfl⟩ | ⟨s', le', rfl⟩ | rfl := cases_alternation hl hr le
  · exact .refl
  · exact inLeft le'
  · exact inRight le'
  · exact (inLeft (Nat.le_refl _)).tail ⟨_, edge (.inr (.inl ⟨.inl rfl, rfl, rfl⟩))⟩

lemma entered_concatenation (hl : l.Shaped) (el : l.Entered) (er : r.Entered) :
    (concatenation l r).Entered := by
  have inLeft {s : Nat} (le : s ≤ l.accepting) : (concatenation l r).Leads 0 s :=
    (el s le).embed (n := 0) fun e => (edge_concatenation hl).mpr (.inl e)
  intro s le
  obtain left | ⟨s', le', rfl⟩ := cases_concatenation hl le
  · exact inLeft left
  · -- The right part is entered at the joint, which is the last state of the left one.
    have way : (concatenation l r).Leads (0 + l.accepting) (s' + l.accepting) :=
      (er s' le').embed fun e => (edge_concatenation hl).mpr (.inr ⟨_, _, rfl, rfl, e⟩)
    rw [Nat.zero_add] at way
    exact (inLeft (Nat.le_refl _)).trans way

lemma entered_star (h : a.Shaped) (e : a.Entered) : (star a).Entered := by
  have edge {s x t} := (edge_star (s := s) (x := x) (t := t) h).mpr
  intro s le
  obtain rfl | ⟨s', le', rfl⟩ | rfl := cases_star h le
  · exact .refl
  · have way : (star a).Leads (0 + 1) (s' + 1) :=
      (e s' le').embed fun e => edge (.inr ⟨_, _, rfl, rfl, e⟩)
    exact .head ⟨_, edge (.inl ⟨.inl rfl, rfl, .inl rfl⟩)⟩ way
  · exact (edge (.inl ⟨.inl rfl, rfl, .inr rfl⟩)).leads

lemma entered_ofPattern (p : Pattern) : (ofPattern p).Entered := by
  induction p with
  | empty => exact entered_basic
  | event _ => exact entered_basic
  | alt l r ihl ihr => exact entered_alternation (shaped_ofPattern l) (shaped_ofPattern r) ihl ihr
  | seq l r ihl ihr => exact entered_concatenation (shaped_ofPattern l) ihl ihr
  | star p ih => exact entered_star (shaped_ofPattern p) ih
  | maybe p ih => exact entered_alternation shaped_basic (shaped_ofPattern p) entered_basic ih

lemma leads_accepting_ofPattern (p : Pattern) (le : s ≤ (ofPattern p).accepting) :
    (ofPattern p).Leads s (ofPattern p).accepting := by
  -- With a letter that every term takes, the way to the end is that of some word.
  have finishes : (ofPattern p).Finishes fun (_ : EventTerm) (_ : Unit) => True :=
    finishes_ofPattern p fun _ _ => ⟨(), trivial⟩
  obtain ⟨_, path⟩ := finishes s le
  exact path.leads

lemma size_alternation (hl : l.Shaped) (hr : r.Shaped) :
    (alternation l r).size = l.size + r.size + 2 := by
  rw [(shaped_alternation hl hr).size, accepting_alternation hl hr, hl.size, hr.size]
  omega

lemma size_concatenation (hl : l.Shaped) (hr : r.Shaped) :
    (concatenation l r).size = l.size + r.size - 1 := by
  rw [(shaped_concatenation hl hr).size, accepting_concatenation hl, hl.size, hr.size]
  omega

lemma size_star (h : a.Shaped) : (star a).size = a.size + 2 := by
  rw [(shaped_star h).size, accepting_star h, h.size]

lemma size_ofPattern (p : Pattern) : (ofPattern p).size = p.stateCount := by
  induction p with
  | empty => rfl
  | event _ => rfl
  | alt l r ihl ihr =>
    rw [Pattern.stateCount, ← ihl, ← ihr]
    exact size_alternation (shaped_ofPattern l) (shaped_ofPattern r)
  | seq l r ihl ihr =>
    rw [Pattern.stateCount, ← ihl, ← ihr]
    exact size_concatenation (shaped_ofPattern l) (shaped_ofPattern r)
  | star p ih =>
    rw [Pattern.stateCount, ← ih]
    exact size_star (shaped_ofPattern p)
  | maybe p ih =>
    rw [Pattern.stateCount, ← ih]
    refine (size_alternation shaped_basic (shaped_ofPattern p)).trans ?_
    have basic_size : (basic .epsilon).size = 2 := rfl
    omega

/-- The automaton of a pattern has as many states as its parts ask for, begins in `0` and accepts in its
last state. Its edges join states of it; none leads into the first state or out of the accepting one.
Every state is entered from the first one and leads to the accepting one. -/
theorem shape_ofPattern (p : Pattern) :
    let a := ofPattern p
    a.size = p.stateCount ∧ a.initial = 0 ∧ a.accepting + 1 = a.size ∧
      (∀ e ∈ a.transitions, e.source < a.size ∧ e.target < a.size ∧ e.target ≠ 0 ∧
        e.source ≠ a.accepting) ∧
      ∀ s < a.size, a.Leads 0 s ∧ a.Leads s a.accepting := by
  intro a
  have shaped : a.Shaped := shaped_ofPattern p
  refine ⟨size_ofPattern p, shaped.initial, shaped.size.symm, fun e mem => ?_, fun s lt => ?_⟩
  · have edge := mem_transitions.mp mem
    have source := shaped.source edge
    refine ⟨?_, shaped.target_lt_size edge, (shaped.target edge).1.ne', source.ne⟩
    rw [shaped.size]
    exact source.trans (Nat.lt_succ_self _)
  · have le : s ≤ a.accepting := by
      rw [shaped.size] at lt
      exact Nat.le_of_lt_succ lt
    exact ⟨entered_ofPattern p s le, leads_accepting_ofPattern p le⟩

end Nfa

end Interleaving
