import Mathlib.Data.Finset.Powerset
import Interleaving.Pattern.Dfa
import Interleaving.Proofs.Pattern.Matcher

/-!
# The deterministic automaton of a pattern

`Dfa.ofNfa` expands the states on a list until the list is empty. `Dfa.Expands` is that loop without
a bound on its rounds, `Dfa.Exploring` is what holds between two of its steps, and `Dfa.cost` is
what falls with every state expanded, since there are no more states than sets of states of the
other automaton. What comes out accepts the pattern's words, read over the terms themselves as
letters (`Dfa.accepts_ofPattern_iff`).
-/

namespace Interleaving

namespace Dfa

variable {a : Nfa} {d : Dfa} {i j id : Nat} {x y : EventTerm} {s : SortedSet Nat}
variable {found : Dfa × List Nat} {pending : List Nat} {todo : List EventTerm}

section Views

lemma members?_add : (d.add a s).members? i = if i = d.size then some s else d.members? i := by
  rw [members?, add, Array.getElem?_push, size]
  split <;> rfl

lemma isAccepting_add : (d.add a s).isAccepting i =
    if i = d.size then s.contains a.accepting else d.isAccepting i := by
  rw [isAccepting, add, Array.getElem?_push, size]
  split <;> rfl

lemma next?_eq_none (h : d.size ≤ i) : d.next? i x = none := by
  rw [next?, Array.getElem?_eq_none h, Option.bind_none]

lemma next?_add : (d.add a s).next? i x = d.next? i x := by
  rw [next?, add, Array.getElem?_push]
  split
  · next h =>
    rw [next?_eq_none h.ge]
    rfl
  · rfl

lemma members?_link : (d.link id x j).members? i = d.members? i := by
  rw [members?, link, Array.getElem?_modify]
  split
  · rw [Option.map_map]
    rfl
  · rfl

lemma isAccepting_link : (d.link id x j).isAccepting i = d.isAccepting i := by
  rw [isAccepting, link, Array.getElem?_modify]
  split
  · rw [Option.any_map]
    rfl
  · rfl

lemma next?_link (h : d.members? id = some s) :
    (d.link id x j).next? i y = if i = id ∧ y = x then some j else d.next? i y := by
  rw [next?, link, Array.getElem?_modify]
  split
  · next e =>
    subst e
    obtain ⟨state, h, -⟩ := Option.map_eq_some_iff.mp h
    rw [next?, h, Option.map_some, Option.bind_some, Option.bind_some, SortedMap.get?_insert]
    simp only [true_and]
  · next e =>
    rw [if_neg fun h => e h.1.symm]
    rfl

lemma size_link : (d.link id x j).size = d.size := Array.size_modify

lemma size_add : (d.add a s).size = d.size + 1 := Array.size_push _

lemma lt_size_iff : i < d.size ↔ ∃ s, d.members? i = some s := by
  simp [members?, size, Option.map_eq_some_iff, Array.getElem?_eq_some_iff]

lemma find?_eq_some (h : d.find? s = some i) : d.members? i = some s := by
  obtain ⟨lt, h, -⟩ := Array.findIdx?_eq_some_iff_getElem.mp h
  rw [members?, Array.getElem?_eq_getElem lt, Option.map_some, eq_of_beq h]

lemma find?_eq_none (h : d.find? s = none) : d.members? i ≠ some s := by
  intro found
  obtain ⟨state, hi, rfl⟩ := Option.map_eq_some_iff.mp found
  have := Array.findIdx?_eq_none_iff.mp h state (Array.mem_of_getElem? hi)
  exact absurd this (by simp)

end Views

section Expansion

/-- The automaton and the list at the start: the first state is still to be expanded. -/
def seed (a : Nfa) : Dfa × List Nat := ((Dfa.mk #[]).add a a.startStates, [0])

/-- Expanding the states on the list, the first of them first, ends with an automaton. -/
inductive Expands (a : Nfa) : Dfa × List Nat → Dfa → Prop where
  | done {d : Dfa} :
    Expands a (d, []) d
  | next {d e : Dfa} {id : Nat} {pending : List Nat} :
    Expands a (a.inputSymbols.toList.foldl (follow a id) (d, pending)) e →
    Expands a (d, id :: pending) e

/-- A set of states of the automaton, and not the empty one. -/
structure Proper (a : Nfa) (s : SortedSet Nat) : Prop where
  nonempty : ∃ t, t ∈ s
  bounded : ∀ t ∈ s, t < a.size

/-- What holds in the middle of the construction. A state's set leads, by each term, to the set that
the term and the empty moves after it lead to, unless the state is still to be expanded or the term
is among those, `todo`, that are still to be followed from the state `id`. -/
structure Exploring (a : Nfa) (id : Nat) (todo : List EventTerm) (found : Dfa × List Nat) :
    Prop where
  start : found.1.members? 0 = some a.startStates
  current : id < found.1.size
  pending : ∀ i ∈ found.2, i < found.1.size
  distinct : ∀ {i j s}, found.1.members? i = some s → found.1.members? j = some s → i = j
  proper : ∀ {i s}, found.1.members? i = some s → Proper a s
  accepting : ∀ {i s}, found.1.members? i = some s →
    (found.1.isAccepting i = true ↔ a.accepting ∈ s)
  leads : ∀ {i s x j}, found.1.members? i = some s → found.1.next? i x = some j →
    found.1.members? j = some (a.epsilonClosure (a.moveOn s x))
  covers : ∀ {i s x}, found.1.members? i = some s → x ∈ a.inputSymbols →
    (∃ t, t ∈ a.moveOn s x) →
    i ∈ found.2 ∨ (i = id ∧ x ∈ todo) ∨ ∃ j, found.1.next? i x = some j

lemma Exploring.visit (c : Exploring a j [] (d, id :: pending)) :
    Exploring a id a.inputSymbols.toList (d, pending) where
  start := c.start
  current := c.pending id List.mem_cons_self
  pending i h := c.pending i (List.mem_cons_of_mem _ h)
  distinct := c.distinct
  proper := c.proper
  accepting := c.accepting
  leads := c.leads
  covers hs hx moved := by
    obtain h | ⟨-, h⟩ | h := c.covers hs hx moved
    · obtain rfl | h := List.mem_cons.mp h
      · exact .inr (.inl ⟨rfl, hx⟩)
      · exact .inl h
    · cases h
    · exact .inr (.inr h)

/-- A term that leads nowhere is done with. -/
lemma Exploring.skip (c : Exploring a id (x :: todo) found) (hs : found.1.members? id = some s)
    (stuck : ¬ ∃ t, t ∈ a.moveOn s x) : Exploring a id todo found := by
  refine { c with covers := fun {i r y} hr hy moved => ?_ }
  obtain h | ⟨rfl, h⟩ | h := c.covers hr hy moved
  · exact .inl h
  · obtain rfl | h := List.mem_cons.mp h
    · cases hs.symm.trans hr
      exact absurd moved stuck
    · exact .inr (.inl ⟨rfl, h⟩)
  · exact .inr (.inr h)

lemma Exploring.link (c : Exploring a id (x :: todo) (d, pending)) (hs : d.members? id = some s)
    (hj : d.members? j = some (a.epsilonClosure (a.moveOn s x))) :
    Exploring a id todo (d.link id x j, pending) where
  start := members?_link.trans c.start
  current := size_link.symm ▸ c.current
  pending i h := size_link.symm ▸ c.pending i h
  distinct hi hj := c.distinct (members?_link.symm.trans hi) (members?_link.symm.trans hj)
  proper h := c.proper (members?_link.symm.trans h)
  accepting h := by
    rw [isAccepting_link]
    exact c.accepting (members?_link.symm.trans h)
  leads {i r y k} hr hk := by
    rw [members?_link] at hr ⊢
    rw [next?_link hs] at hk
    split at hk
    · next e =>
      obtain ⟨rfl, rfl⟩ := e
      cases hk
      cases hs.symm.trans hr
      exact hj
    · exact c.leads hr hk
  covers {i r y} hr hy moved := by
    rw [members?_link] at hr
    rw [next?_link hs]
    obtain h | ⟨rfl, h⟩ | h := c.covers hr hy moved
    · exact .inl h
    · obtain rfl | h := List.mem_cons.mp h
      · exact .inr (.inr ⟨j, if_pos ⟨rfl, rfl⟩⟩)
      · exact .inr (.inl ⟨rfl, h⟩)
    · split
      · exact .inr (.inr ⟨j, rfl⟩)
      · exact .inr (.inr h)

lemma Exploring.add (c : Exploring a id todo (d, pending)) (fresh : ∀ i, d.members? i ≠ some s)
    (hs : Proper a s) : Exploring a id todo (d.add a s, d.size :: pending) := by
  -- The new state has the number after all others and leads nowhere yet.
  have old {i r} (h : d.members? i = some r) : (d.add a s).members? i = some r := by
    rw [members?_add, if_neg (lt_size_iff.mpr ⟨r, h⟩).ne]
    exact h
  have inv {i r} (h : (d.add a s).members? i = some r) :
      i = d.size ∧ r = s ∨ d.members? i = some r := by
    rw [members?_add] at h
    split at h
    · next e => exact .inl ⟨e, (Option.some.inj h).symm⟩
    · exact .inr h
  constructor
  case start => exact old c.start
  case current => exact size_add.symm ▸ Nat.lt_succ_of_lt c.current
  case pending =>
    intro i h
    rw [size_add]
    obtain rfl | h := List.mem_cons.mp h
    · exact Nat.lt_succ_self _
    · exact Nat.lt_succ_of_lt (c.pending i h)
  case distinct =>
    intro i j r hi hj
    obtain ⟨ei, er⟩ | oldi := inv hi
    · obtain ⟨ej, -⟩ | oldj := inv hj
      · exact ei.trans ej.symm
      · exact absurd (er ▸ oldj) (fresh j)
    · obtain ⟨-, er⟩ | oldj := inv hj
      · exact absurd (er ▸ oldi) (fresh i)
      · exact c.distinct oldi oldj
  case proper =>
    intro i r h
    obtain ⟨-, rfl⟩ | h := inv h
    · exact hs
    · exact c.proper h
  case accepting =>
    intro i r h
    rw [isAccepting_add]
    obtain ⟨rfl, rfl⟩ | h := inv h
    · rw [if_pos rfl, SortedSet.contains_iff]
    · rw [if_neg (lt_size_iff.mpr ⟨r, h⟩).ne]
      exact c.accepting h
  case leads =>
    intro i r y j h hj
    rw [next?_add] at hj
    obtain ⟨rfl, -⟩ | h := inv h
    · rw [next?_eq_none (Nat.le_refl _)] at hj
      cases hj
    · exact old (c.leads h hj)
  case covers =>
    intro i r y h hy moved
    obtain ⟨rfl, -⟩ | h := inv h
    · exact .inl List.mem_cons_self
    · obtain h | h | h := c.covers h hy moved
      · exact .inl (List.mem_cons_of_mem _ h)
      · exact .inr (.inl h)
      · rw [next?_add]
        exact .inr (.inr h)

/-- Following one term from a state: nothing is done where it leads nowhere, and a set that is met
for the first time becomes a state. -/
lemma follow_cases (hs : d.members? id = some s) :
    ((¬ ∃ t, t ∈ a.moveOn s x) ∧ follow a id (d, pending) x = (d, pending)) ∨
    (∃ t, t ∈ a.moveOn s x) ∧
      ((∃ j, d.members? j = some (a.epsilonClosure (a.moveOn s x)) ∧
        follow a id (d, pending) x = (d.link id x j, pending)) ∨
      ((∀ j, d.members? j ≠ some (a.epsilonClosure (a.moveOn s x))) ∧
        follow a id (d, pending) x =
          ((d.add a (a.epsilonClosure (a.moveOn s x))).link id x d.size, d.size :: pending))) := by
  obtain ⟨state, h, rfl⟩ := Option.map_eq_some_iff.mp hs
  simp only [follow, h, Option.elim_some]
  split
  · next stuck => exact .inl ⟨not_exists.mpr (SortedSet.isEmpty_iff.mp stuck), rfl⟩
  · next moved =>
    refine .inr ⟨by simpa using moved, ?_⟩
    split
    · next j hj => exact .inl ⟨j, find?_eq_some hj, rfl⟩
    · next hj => exact .inr ⟨fun j => find?_eq_none hj, rfl⟩

lemma Proper.epsilonClosure (h : a.Shaped) (hs : Proper a s) : Proper a (a.epsilonClosure s) where
  nonempty := by
    obtain ⟨t, ht⟩ := hs.nonempty
    exact ⟨t, Nfa.mem_epsilonClosure.mpr ⟨t, ht, .refl⟩⟩
  bounded t ht := by
    obtain ⟨r, hr, path⟩ := Nfa.mem_epsilonClosure.mp ht
    cases path with
    | refl => exact hs.bounded t hr
    | tail _ e => exact h.target_lt_size e

lemma proper_moveOn (h : a.Shaped) (moved : ∃ t, t ∈ a.moveOn s x) : Proper a (a.moveOn s x) where
  nonempty := moved
  bounded t ht := by
    obtain ⟨_, _, _, _, e⟩ := Nfa.mem_targets.mp ht
    exact h.target_lt_size e

lemma proper_startStates (h : a.Shaped) : Proper a a.startStates := by
  refine Proper.epsilonClosure h ⟨⟨a.initial, by simp⟩, fun t ht => ?_⟩
  obtain rfl := List.mem_singleton.mp (SortedSet.mem_ofList.mp ht)
  rw [h.initial, h.size]
  exact Nat.succ_pos _

/-- Distinct sets of states are no more than there are subsets. -/
lemma Exploring.size_le (c : Exploring a id todo found) : found.1.size ≤ 2 ^ a.size := by
  let subset (i : Nat) : Finset Nat := ((found.1.members? i).getD .empty).toList.toFinset
  have eq {i r} (h : found.1.members? i = some r) : subset i = r.toList.toFinset := by
    simp only [subset, h, Option.getD_some]
  calc found.1.size = (Finset.range found.1.size).card := (Finset.card_range _).symm
    _ ≤ (Finset.range a.size).powerset.card := by
      refine Finset.card_le_card_of_injOn subset (fun i hi => ?_) fun i hi j hj same => ?_
      · obtain ⟨r, hr⟩ := lt_size_iff.mp (Finset.mem_range.mp hi)
        rw [Finset.mem_coe, Finset.mem_powerset, eq hr]
        intro t ht
        exact Finset.mem_range.mpr ((c.proper hr).bounded t (List.mem_toFinset.mp ht))
      · obtain ⟨r, hr⟩ := lt_size_iff.mp (Finset.mem_range.mp hi)
        obtain ⟨q, hq⟩ := lt_size_iff.mp (Finset.mem_range.mp hj)
        rw [eq hr, eq hq] at same
        have : r = q := SortedSet.ext fun t => by
          rw [← SortedSet.mem_toList, ← SortedSet.mem_toList, ← List.mem_toFinset, same,
            List.mem_toFinset]
        exact c.distinct hr (this ▸ hq)
    _ = 2 ^ a.size := by rw [Finset.card_powerset, Finset.card_range]

/-- The states still to be expanded, and those that may yet be found. -/
def cost (a : Nfa) (found : Dfa × List Nat) : Nat :=
  2 ^ a.size - found.1.size + found.2.length

/-- A state found costs what it takes away from those that may yet be found. -/
lemma Exploring.follow (h : a.Shaped) (c : Exploring a id (x :: todo) found) :
    Exploring a id todo (follow a id found x) ∧ cost a (Dfa.follow a id found x) = cost a found := by
  obtain ⟨d, pending⟩ := found
  obtain ⟨s, hs⟩ := lt_size_iff.mp c.current
  obtain ⟨stuck, e⟩ | ⟨moved, ⟨j, hj, e⟩ | ⟨fresh, e⟩⟩ :=
    follow_cases hs
  · rw [e]
    exact ⟨c.skip hs stuck, rfl⟩
  · rw [e]
    refine ⟨c.link hs hj, ?_⟩
    rw [cost, size_link, cost]
  · rw [e]
    have added := c.add fresh ((proper_moveOn h moved).epsilonClosure h)
    have lt := added.size_le
    have hs' : (d.add a (a.epsilonClosure (a.moveOn s x))).members? id = some s := by
      rw [members?_add, if_neg (lt_size_iff.mpr ⟨s, hs⟩).ne, hs]
    refine ⟨added.link hs' (by rw [members?_add, if_pos rfl]), ?_⟩
    simp only [cost, size_link, size_add, List.length_cons] at lt ⊢
    omega

lemma Exploring.followAll (h : a.Shaped) (c : Exploring a id todo found) :
    Exploring a id [] (todo.foldl (Dfa.follow a id) found) ∧
      cost a (todo.foldl (Dfa.follow a id) found) = cost a found := by
  induction todo generalizing found with
  | nil => exact ⟨c, rfl⟩
  | cons x todo ih =>
    obtain ⟨c, e⟩ := c.follow h
    obtain ⟨c, e'⟩ := ih c
    exact ⟨c, e'.trans e⟩

lemma Exploring.expand (h : a.Shaped) {fuel : Nat} (c : Exploring a id [] found)
    (enough : cost a found ≤ fuel) :
    (∃ id, Exploring a id [] (expand a a.inputSymbols.toList fuel found, [])) ∧
      Expands a found (Dfa.expand a a.inputSymbols.toList fuel found) := by
  induction fuel generalizing id found with
  | zero =>
    obtain ⟨d, pending⟩ := found
    have none : pending.length = 0 := Nat.eq_zero_of_le_zero ((Nat.le_add_left _ _).trans enough)
    cases List.eq_nil_of_length_eq_zero none
    exact ⟨⟨id, c⟩, .done⟩
  | succ fuel ih =>
    obtain ⟨d, pending⟩ := found
    cases pending with
    | nil => exact ⟨⟨id, c⟩, .done⟩
    | cons i pending =>
      obtain ⟨c, e⟩ := c.visit.followAll h
      have lt : cost a (d, pending) < cost a (d, i :: pending) := by
        simp only [cost, List.length_cons]
        omega
      obtain ⟨explored, expands⟩ := ih c (e.trans_le (Nat.le_of_lt_succ (lt.trans_le enough)))
      exact ⟨explored, .next expands⟩

lemma Exploring.begin (h : a.Shaped) : Exploring a 0 [] (seed a) := by
  have only {i r} (hr : ((Dfa.mk #[]).add a a.startStates).members? i = some r) :
      i = 0 ∧ r = a.startStates := by
    rw [members?_add] at hr
    split at hr
    · next e => exact ⟨e, (Option.some.inj hr).symm⟩
    · cases hr
  constructor
  case start => rfl
  case current => exact Nat.one_pos
  case pending =>
    intro i hi
    obtain rfl := List.mem_singleton.mp hi
    exact Nat.one_pos
  case distinct => exact fun hi hj => (only hi).1.trans (only hj).1.symm
  case proper =>
    intro i r hr
    exact (only hr).2 ▸ proper_startStates h
  case accepting =>
    intro i r hr
    obtain ⟨rfl, rfl⟩ := only hr
    exact SortedSet.contains_iff
  case leads =>
    intro i r x j _ hj
    simp only [seed, next?_add] at hj
    rw [next?_eq_none (Nat.zero_le _)] at hj
    cases hj
  case covers =>
    intro i r x hr _ _
    exact .inl (List.mem_singleton.mpr (only hr).1)

/-- The construction expands every state, within the rounds allowed to it. -/
lemma explored_ofNfa (h : a.Shaped) :
    (∃ id, Exploring a id [] (ofNfa a, [])) ∧ Expands a (seed a) (ofNfa a) := by
  refine (Exploring.begin h).expand h ?_
  have : 0 < 2 ^ a.size := Nat.two_pow_pos _
  show 2 ^ a.size - 1 + 1 ≤ 2 ^ a.size + 1
  omega

end Expansion

section Words

variable {p : Pattern} {v w : List EventTerm}

/-- A state whose set is where the automaton can be after the word `v` accepts what completes `v`. -/
lemma Exploring.acceptsFrom_iff (c : Exploring a id [] (d, [])) (hs : d.members? i = some s)
    (after : ∀ t, t ∈ s ↔ Nfa.Path Eq a a.initial v t) :
    d.acceptsFrom i w = true ↔ Nfa.Path Eq a a.initial (v ++ w) a.accepting := by
  induction w generalizing i s v with
  | nil => rw [acceptsFrom, c.accepting hs, after, List.append_nil]
  | cons x w ih =>
    have moved (t : Nat) : t ∈ a.epsilonClosure (a.moveOn s x) ↔
        Nfa.Path Eq a a.initial (v ++ [x]) t :=
      Nfa.mem_epsilonClosure_targets (fun y => beq_iff_eq) after
    rw [List.append_cons]
    cases hj : d.next? i x with
    | some j =>
      simp only [acceptsFrom, hj]
      exact ih (c.leads hs hj) moved
    | none =>
      simp only [acceptsFrom, hj, Bool.false_eq_true, false_iff]
      refine Nfa.not_path_append (fun t path => ?_) _ a.accepting
      -- Some edge with the term would lead on, and a term on an edge has been followed.
      obtain ⟨q, hq, -⟩ := Nfa.mem_epsilonClosure.mp ((moved t).mpr path)
      obtain ⟨r, -, y, hy, edge⟩ := Nfa.mem_targets.mp hq
      obtain rfl := eq_of_beq hy
      obtain h | ⟨-, h⟩ | ⟨j, h⟩ :=
        c.covers hs (Matcher.mem_inputSymbols.mpr ⟨r, q, edge⟩) ⟨q, hq⟩
      · cases h
      · cases h
      · cases hj.symm.trans h

/-- The deterministic automaton of a pattern accepts exactly the words of the pattern, where a term
stands for itself alone. It is what the loop ends with that expands every state found, and its
states stand for different sets of states, none of them empty; those with the accepting state in
their set accept. -/
theorem accepts_ofPattern_iff (p : Pattern) :
    (∀ w, (ofNfa (.ofPattern p)).accepts w = true ↔ w ∈ p.language Eq) ∧
    Expands (.ofPattern p) (seed (.ofPattern p)) (ofNfa (.ofPattern p)) ∧
    (∀ i j s, (ofNfa (.ofPattern p)).members? i = some s →
      (ofNfa (.ofPattern p)).members? j = some s → i = j) ∧
    ∀ i s, (ofNfa (.ofPattern p)).members? i = some s → Proper (.ofPattern p) s ∧
      ((ofNfa (.ofPattern p)).isAccepting i = true ↔ (Nfa.ofPattern p).accepting ∈ s) := by
  obtain ⟨⟨id, c⟩, expands⟩ := explored_ofNfa (Nfa.shaped_ofPattern p)
  refine ⟨fun w => ?_, expands, fun _ _ _ => c.distinct, fun _ _ h => ⟨c.proper h, c.accepting h⟩⟩
  rw [accepts, c.acceptsFrom_iff c.start fun t => Nfa.mem_startStates.trans Nfa.path_nil.symm,
    ← Nfa.language_ofPattern]
  exact Iff.rfl

end Words

end Dfa

end Interleaving
