import Mathlib.Logic.Relation
import Interleaving.Proofs.Pattern.Path

/-!
# Closing a set of states under empty moves

`Nfa.epsilonClosure` visits states off a list until the list is empty. `Nfa.Round` is one round of such
a visit, `Nfa.Closing` is what holds between two rounds, and `Nfa.cost` is what falls with every round.
The closure is then exactly what the empty moves reach, in any automaton (`Nfa.mem_epsilonClosure`): the
least closed set around the given one, in whatever order the states are visited
(`Nfa.epsilonClosure_least`). The states that a run of `Nfa.step` ends in are those of the paths with
the events' word.
-/

namespace Interleaving

namespace Nfa

variable {α : Type} {suits : EventTerm → α → Prop} {a : Nfa} {s t u : Nat}
variable {given closed : SortedSet Nat} {pending rest todo : List Nat}
variable {found next : SortedSet Nat × List Nat}

/-- An empty move leads from `s` to `t`. -/
def EmptyMove (a : Nfa) (s t : Nat) : Prop := a.Edge s .epsilon t

/-- Empty moves lead from `s` to `t`. -/
def Reach (a : Nfa) : Nat → Nat → Prop := Relation.ReflTransGen a.EmptyMove

/-- Empty moves out of a set stay in it. -/
def IsClosed (a : Nfa) (states : SortedSet Nat) : Prop :=
  ∀ s ∈ states, ∀ t, a.EmptyMove s t → t ∈ states

lemma IsClosed.mem_of_reach (h : a.IsClosed closed) (mem : s ∈ closed) (way : a.Reach s t) :
    t ∈ closed := by
  induction way with
  | refl => exact mem
  | tail _ m ih => exact h _ ih _ m

lemma mem_epsilonTargets : t ∈ a.epsilonTargets s ↔ a.Edge s .epsilon t := by
  simp only [epsilonTargets, List.mem_filterMap, Edge]
  constructor
  · rintro ⟨⟨t', x⟩, h, e⟩
    cases x with
    | epsilon =>
      cases e
      exact h
    | event _ => cases e
  · intro h
    exact ⟨(t, .epsilon), h, rfl⟩

/-- What holds in the middle of a visit. The known states are reached from the given ones, and an
empty move out of a known state leads to a known state, unless the state is still to be visited or
the target is among the moves `todo` of the state being visited. -/
structure Closing (a : Nfa) (given : SortedSet Nat) (todo : List Nat)
    (found : SortedSet Nat × List Nat) : Prop where
  base : ∀ s ∈ given, s ∈ found.1
  reach : ∀ t ∈ found.1, ∃ s ∈ given, a.Reach s t
  known : ∀ s ∈ found.2, s ∈ found.1
  move : ∀ s ∈ found.1, ∀ t, a.EmptyMove s t → s ∈ found.2 ∨ t ∈ found.1 ∨ t ∈ todo
  target : ∀ t ∈ todo, ∃ s ∈ found.1, a.EmptyMove s t

lemma Closing.begin : a.Closing given [] (given, given.toList) where
  base _ h := h
  reach t h := ⟨t, h, .refl⟩
  known _ h := h
  move _ h _ _ := .inl h
  target _ h := by cases h

lemma Closing.visit (c : a.Closing given [] (closed, s :: pending)) :
    a.Closing given (a.epsilonTargets s) (closed, pending) where
  base := c.base
  reach := c.reach
  known t h := c.known t (List.mem_cons_of_mem _ h)
  move t h u m := by
    obtain h | h | h := c.move t h u m
    · obtain rfl | h := List.mem_cons.mp h
      · exact .inr (.inr (mem_epsilonTargets.mpr m))
      · exact .inl h
    · exact .inr (.inl h)
    · cases h
  target t h := ⟨s, c.known s List.mem_cons_self, mem_epsilonTargets.mp h⟩

lemma Closing.discover (c : a.Closing given (t :: todo) found) :
    a.Closing given todo (discover found t) := by
  simp only [Nfa.discover]
  split
  · next known =>
    have known := SortedSet.contains_iff.mp known
    refine { c with move := fun s h u m => ?_, target := fun u h => ?_ }
    · obtain h | h | h := c.move s h u m
      · exact .inl h
      · exact .inr (.inl h)
      · obtain rfl | h := List.mem_cons.mp h
        · exact .inr (.inl known)
        · exact .inr (.inr h)
    · exact c.target u (List.mem_cons_of_mem _ h)
  · constructor
    case base =>
      intro s h
      exact SortedSet.mem_insert.mpr (.inr (c.base s h))
    case reach =>
      intro u h
      obtain rfl | h := SortedSet.mem_insert.mp h
      · obtain ⟨s, hs, m⟩ := c.target u List.mem_cons_self
        obtain ⟨r, hr, path⟩ := c.reach s hs
        exact ⟨r, hr, path.tail m⟩
      · exact c.reach u h
    case known =>
      intro s h
      obtain rfl | h := List.mem_cons.mp h
      · exact SortedSet.mem_insert.mpr (.inl rfl)
      · exact SortedSet.mem_insert.mpr (.inr (c.known s h))
    case move =>
      intro s h u m
      obtain rfl | h := SortedSet.mem_insert.mp h
      · exact .inl List.mem_cons_self
      obtain h | h | h := c.move s h u m
      · exact .inl (List.mem_cons_of_mem _ h)
      · exact .inr (.inl (SortedSet.mem_insert.mpr (.inr h)))
      · obtain rfl | h := List.mem_cons.mp h
        · exact .inr (.inl (SortedSet.mem_insert.mpr (.inl rfl)))
        · exact .inr (.inr h)
    case target =>
      intro u h
      obtain ⟨s, hs, m⟩ := c.target u (List.mem_cons_of_mem _ h)
      exact ⟨s, SortedSet.mem_insert.mpr (.inr hs), m⟩

lemma Closing.discoverAll (c : a.Closing given todo found) :
    a.Closing given [] (todo.foldl Nfa.discover found) := by
  induction todo generalizing found with
  | nil => exact c
  | cons t todo ih => exact ih c.discover

/-- The states still to be visited are in no order. -/
lemma Closing.reorder (c : a.Closing given todo (closed, pending)) (perm : pending.Perm rest) :
    a.Closing given todo (closed, rest) where
  base := c.base
  reach := c.reach
  known s h := c.known s (perm.mem_iff.mpr h)
  move s h t m := (c.move s h t m).imp_left perm.mem_iff.mp
  target := c.target

/-- In one round any of the states still to be visited is taken, and what its empty moves discover is
noted. -/
inductive Round (a : Nfa) : SortedSet Nat × List Nat → SortedSet Nat × List Nat → Prop where
  | visit {closed : SortedSet Nat} {pending rest : List Nat} {s : Nat} :
    pending.Perm (s :: rest) →
    Round a (closed, pending) ((a.epsilonTargets s).foldl discover (closed, rest))

lemma Closing.round (c : a.Closing given [] found) (round : a.Round found next) :
    a.Closing given [] next := by
  cases round with
  | visit perm => exact (c.reorder perm).visit.discoverAll

/-- Whether an edge leads to a state that is not known yet. -/
def leadsOn (closed : SortedSet Nat) (e : Transition) : Bool := !closed.contains e.target

lemma leadsOn_iff {e : Transition} : leadsOn closed e = true ↔ e.target ∉ closed := by
  simp [leadsOn, Bool.eq_false_iff]

/-- The states still to be visited, and the edges that may yet lead to a new one. -/
def cost (a : Nfa) (found : SortedSet Nat × List Nat) : Nat :=
  found.2.length + a.transitions.countP (leadsOn found.1)

lemma countP_leadsOn_insert_lt {es : List Transition} {e : Transition} (he : e ∈ es)
    (h : e.target ∉ closed) :
    es.countP (leadsOn (closed.insert e.target)) < es.countP (leadsOn closed) := by
  have mono (es : List Transition) :
      es.countP (leadsOn (closed.insert e.target)) ≤ es.countP (leadsOn closed) := by
    refine List.countP_mono_left fun e' _ h' => ?_
    rw [leadsOn_iff, SortedSet.mem_insert, not_or] at h'
    exact leadsOn_iff.mpr h'.2
  obtain ⟨before, after, rfl⟩ := List.append_of_mem he
  have known : ¬ leadsOn (closed.insert e.target) e = true := by
    rw [leadsOn_iff, not_not]
    exact SortedSet.mem_insert.mpr (.inl rfl)
  rw [List.countP_append, List.countP_append, List.countP_cons_of_pos (leadsOn_iff.mpr h),
    List.countP_cons_of_neg known]
  have := mono before
  have := mono after
  omega

lemma cost_discover_le (h : a.EmptyMove s t) : a.cost (discover found t) ≤ a.cost found := by
  simp only [discover]
  split
  · exact Nat.le_refl _
  · next fresh =>
    have fresh : t ∉ found.1 := fun known => fresh (SortedSet.contains_iff.mpr known)
    have mem : ⟨s, t, .epsilon⟩ ∈ a.transitions := mem_transitions.mpr h
    have lt : a.transitions.countP (leadsOn (found.1.insert t)) <
        a.transitions.countP (leadsOn found.1) := countP_leadsOn_insert_lt mem fresh
    simp only [cost, List.length_cons]
    omega

lemma cost_discoverAll_le (h : ∀ t ∈ todo, a.EmptyMove s t) :
    a.cost (todo.foldl discover found) ≤ a.cost found := by
  induction todo generalizing found with
  | nil => exact Nat.le_refl _
  | cons t todo ih =>
    exact (ih fun u hu => h u (List.mem_cons_of_mem _ hu)).trans
      (cost_discover_le (h t List.mem_cons_self))

/-- A state found costs no more than the edge that no longer leads on, and one state is done with. -/
lemma Round.cost_lt (round : a.Round found next) : a.cost next < a.cost found := by
  cases round with
  | @visit closed pending rest s perm =>
    have le : a.cost ((a.epsilonTargets s).foldl discover (closed, rest)) ≤ a.cost (closed, rest) :=
      cost_discoverAll_le fun t ht => mem_epsilonTargets.mp ht
    have length := perm.length_eq
    simp only [cost, List.length_cons] at le length ⊢
    omega

/-- With nothing left to visit the known states are closed. -/
lemma Closing.isClosed (c : a.Closing given [] (closed, [])) : a.IsClosed closed := by
  intro s mem t m
  obtain h | h | h := c.move s mem t m
  · cases h
  · exact h
  · cases h

lemma Closing.mem_iff (c : a.Closing given [] (closed, [])) :
    t ∈ closed ↔ ∃ s ∈ given, a.Reach s t := by
  constructor
  · exact c.reach t
  · rintro ⟨s, hs, way⟩
    exact c.isClosed.mem_of_reach (c.base s hs) way

lemma mem_closeFrom {fuel : Nat} (c : a.Closing given [] found) (h : a.cost found ≤ fuel) :
    t ∈ a.closeFrom fuel found ↔ ∃ s ∈ given, a.Reach s t := by
  obtain ⟨closed, pending⟩ := found
  induction fuel generalizing closed pending with
  | zero =>
    have none : pending.length = 0 := Nat.eq_zero_of_le_zero ((Nat.le_add_right _ _).trans h)
    cases List.eq_nil_of_length_eq_zero none
    exact c.mem_iff
  | succ fuel ih =>
    cases pending with
    | nil => exact c.mem_iff
    | cons s pending =>
      have round : a.Round (closed, s :: pending)
          ((a.epsilonTargets s).foldl discover (closed, pending)) := .visit (.refl _)
      exact ih _ _ (c.round round) (Nat.le_of_lt_succ (round.cost_lt.trans_le h))

/-- The closure of a set is what empty moves reach from it. -/
lemma mem_epsilonClosure {states : SortedSet Nat} :
    t ∈ a.epsilonClosure states ↔ ∃ s ∈ states, a.Reach s t := by
  refine mem_closeFrom .begin ?_
  have := List.countP_le_length (p := leadsOn states) (l := a.transitions)
  simp only [cost, SortedSet.size]
  omega

section Least

variable {states : SortedSet Nat} {last : SortedSet Nat × List Nat}

lemma exists_round_iff : (∃ next, a.Round (closed, pending) next) ↔ pending ≠ [] := by
  constructor
  · rintro ⟨_, ⟨perm⟩⟩ rfl
    cases perm.nil_eq
  · intro left
    obtain ⟨s, rest, rfl⟩ := List.exists_cons_of_ne_nil left
    exact ⟨_, .visit (.refl _)⟩

/-- Every visit comes to an end, wherever it begins and whatever its order. -/
lemma wellFounded_round (a : Nfa) : WellFounded fun next found => a.Round found next :=
  Subrelation.wf (fun round => Round.cost_lt round) (measure a.cost).wf

lemma closing_of_rounds (rounds : Relation.ReflTransGen a.Round (states, states.toList) last) :
    a.Closing states [] last := by
  induction rounds with
  | refl => exact .begin
  | tail _ round ih => exact ih.round round

/-- Whatever the order, a visit that has nothing left to visit has found the closure. -/
lemma eq_of_rounds (rounds : Relation.ReflTransGen a.Round (states, states.toList) last)
    (done : ∀ next, ¬ a.Round last next) : last = (a.epsilonClosure states, []) := by
  obtain ⟨closed, pending⟩ := last
  have none : pending = [] := by
    by_contra left
    obtain ⟨next, round⟩ := exists_round_iff.mpr left
    exact done next round
  subst none
  have same : closed = a.epsilonClosure states := SortedSet.ext fun t => by
    rw [(closing_of_rounds rounds).mem_iff, mem_epsilonClosure]
  rw [same]

lemma exists_rounds (a : Nfa) (states : SortedSet Nat) :
    ∃ last, Relation.ReflTransGen a.Round (states, states.toList) last ∧
      ∀ next, ¬ a.Round last next := by
  obtain ⟨last, rounds, least⟩ := (wellFounded_round a).has_min
    {last | Relation.ReflTransGen a.Round (states, states.toList) last} ⟨_, .refl⟩
  exact ⟨last, rounds, fun next round => least next (rounds.tail round) round⟩

lemma isClosed_epsilonClosure (a : Nfa) (states : SortedSet Nat) :
    a.IsClosed (a.epsilonClosure states) := by
  intro s mem t m
  rw [mem_epsilonClosure] at mem ⊢
  obtain ⟨r, given, way⟩ := mem
  exact ⟨r, given, way.tail m⟩

lemma mem_epsilonClosure_of_mem {s : Nat} (mem : s ∈ states) : s ∈ a.epsilonClosure states :=
  mem_epsilonClosure.mpr ⟨s, mem, .refl⟩

lemma epsilonClosure_le (sub : ∀ s ∈ states, s ∈ closed) (h : a.IsClosed closed) :
    ∀ t ∈ a.epsilonClosure states, t ∈ closed := by
  intro t mem
  obtain ⟨s, given, way⟩ := mem_epsilonClosure.mp mem
  exact h.mem_of_reach (sub s given) way

lemma epsilonClosure_eq_self (h : a.IsClosed closed) : a.epsilonClosure closed = closed :=
  SortedSet.ext fun _ => ⟨epsilonClosure_le (fun _ mem => mem) h _, mem_epsilonClosure_of_mem⟩

/-- Visiting the states of a set, in whatever order, comes to an end, in any automaton and from any set.
What it ends with is the closure: the states that empty moves reach from the set, which are the least
set around it that is closed. So closing a set adds to it, keeps the order of sets, closes no more when
done again, and closes the parts of a union one by one. -/
theorem epsilonClosure_least (a : Nfa) (states : SortedSet Nat) :
    (WellFounded fun next found => a.Round found next) ∧
    (∀ last, Relation.ReflTransGen a.Round (states, states.toList) last ∧
      (∀ next, ¬ a.Round last next) ↔ last = (a.epsilonClosure states, [])) ∧
    (∀ t, t ∈ a.epsilonClosure states ↔ ∃ s ∈ states, a.Reach s t) ∧
    (∀ s ∈ states, s ∈ a.epsilonClosure states) ∧
    a.IsClosed (a.epsilonClosure states) ∧
    (∀ closed, (∀ s ∈ states, s ∈ closed) → a.IsClosed closed →
      ∀ t ∈ a.epsilonClosure states, t ∈ closed) ∧
    (∀ more, (∀ s ∈ states, s ∈ more) →
      ∀ t ∈ a.epsilonClosure states, t ∈ a.epsilonClosure more) ∧
    a.epsilonClosure (a.epsilonClosure states) = a.epsilonClosure states ∧
    ∀ more, a.epsilonClosure (states.union more) =
      (a.epsilonClosure states).union (a.epsilonClosure more) := by
  have closed := isClosed_epsilonClosure a states
  refine ⟨wellFounded_round a, fun last => ?_, fun _ => mem_epsilonClosure,
    fun _ => mem_epsilonClosure_of_mem, closed, fun _ => epsilonClosure_le, fun more sub => ?_,
    epsilonClosure_eq_self closed, fun more => ?_⟩
  · obtain ⟨finish, rounds, done⟩ := exists_rounds a states
    have finish_eq := eq_of_rounds rounds done
    constructor
    · rintro ⟨rounds, done⟩
      exact eq_of_rounds rounds done
    · rintro rfl
      rw [← finish_eq]
      exact ⟨rounds, done⟩
  · refine epsilonClosure_le (fun s mem => ?_) (isClosed_epsilonClosure a more)
    exact mem_epsilonClosure_of_mem (sub s mem)
  · refine SortedSet.ext fun t => ?_
    simp only [SortedSet.mem_union, mem_epsilonClosure, or_and_right, exists_or]

end Least

lemma mem_startStates : t ∈ a.startStates ↔ a.Reach a.initial t := by
  rw [startStates, mem_epsilonClosure]
  simp

lemma mem_targets {f : EventTerm → Bool} {states : SortedSet Nat} :
    t ∈ a.targets f states ↔ ∃ s ∈ states, ∃ y, f y = true ∧ a.Edge s (.event y) t := by
  simp only [targets, SortedSet.mem_ofList, List.mem_flatMap, SortedSet.mem_toList,
    List.mem_filterMap]
  constructor
  · rintro ⟨s, hs, ⟨t', x⟩, e, h⟩
    cases x with
    | epsilon => cases h
    | event y =>
      obtain ⟨fy, h⟩ := Option.ite_none_right_eq_some.mp h
      cases h
      exact ⟨s, hs, y, fy, e⟩
  · rintro ⟨s, hs, y, fy, e⟩
    exact ⟨s, hs, (t, .event y), e, by simp [Label.term?, fy]⟩

lemma path_nil : Path suits a s [] t ↔ a.Reach s t := by
  constructor
  · intro p
    generalize hw : ([] : List α) = w at p
    induction p with
    | nil => exact .refl
    | @cons s t u x v w e hv _ ih =>
      obtain ⟨rfl, rfl⟩ := List.append_eq_nil_iff.mp hw.symm
      cases x with
      | epsilon => exact .head e (ih rfl)
      | event y =>
        obtain ⟨_, _, h⟩ := hv
        cases h
  · intro h
    induction h using Relation.ReflTransGen.head_induction_on with
    | refl => exact .nil
    | head e _ ih => exact .cons e ((Language.mem_one _).mpr rfl) ih

/-- A path whose word has a last letter passes a last edge with a term, and then empty moves. -/
lemma path_snoc {w : List α} {e : α} : Path suits a s (w ++ [e]) t ↔
    ∃ p q y, Path suits a s w p ∧ suits y e ∧ a.Edge p (.event y) q ∧ a.Reach q t := by
  constructor
  · -- The first edge of the path takes no letter, or the only one, or one of `w`.
    intro path
    generalize hw : w ++ [e] = w' at path
    induction path generalizing w with
    | nil => cases List.append_ne_nil_of_right_ne_nil w (List.cons_ne_nil e []) hw
    | @cons s t u x v w' edge hv tail ih =>
      cases x with
      | epsilon =>
        cases (Language.mem_one v).mp hv
        obtain ⟨p, q, y, path, h⟩ := ih hw
        exact ⟨p, q, y, .cons edge hv path, h⟩
      | event z =>
        obtain ⟨c, hc, rfl⟩ := hv
        cases w with
        | nil =>
          obtain ⟨rfl, rfl⟩ := List.cons.inj hw
          exact ⟨s, t, z, .nil, hc, edge, path_nil.mp tail⟩
        | cons d w =>
          obtain ⟨rfl, rest⟩ := List.cons.inj hw
          obtain ⟨p, q, y, path, h⟩ := ih rest
          exact ⟨p, q, y, .cons (v := [d]) edge ⟨d, hc, rfl⟩ path, h⟩
  · rintro ⟨p, q, y, path, hy, edge, reach⟩
    exact path.append (.cons (v := [e]) edge ⟨e, hy, rfl⟩ (path_nil.mpr reach))

/-- A word without a path is not the beginning of a word with one. -/
lemma not_path_append {v : List α} (h : ∀ t, ¬ Path suits a s v t) (w : List α) (t : Nat) :
    ¬ Path suits a s (v ++ w) t := by
  induction w using List.reverseRecOn generalizing t with
  | nil =>
    rw [List.append_nil]
    exact h t
  | append_singleton w e ih =>
    rw [← List.append_assoc]
    intro path
    obtain ⟨q, _, _, path, -⟩ := path_snoc.mp path
    exact ih q path

/-- The edges whose terms take a letter lead, with the empty moves after them, from the states of
the paths with a word to those of the paths with that letter more. -/
lemma mem_epsilonClosure_targets {f : EventTerm → Bool} {states : SortedSet Nat} {w : List α}
    {e : α} (hf : ∀ y, f y = true ↔ suits y e)
    (h : ∀ t, t ∈ states ↔ Path suits a s w t) :
    t ∈ a.epsilonClosure (a.targets f states) ↔ Path suits a s (w ++ [e]) t := by
  rw [mem_epsilonClosure, path_snoc]
  simp only [mem_targets, h, hf]
  constructor
  · rintro ⟨q, ⟨p, path, y, hy, edge⟩, reach⟩
    exact ⟨p, q, y, path, hy, edge, reach⟩
  · rintro ⟨p, q, y, path, hy, edge, reach⟩
    exact ⟨q, ⟨p, path, y, hy, edge⟩, reach⟩

/-- One step leads from the states of the paths with a word to those of the paths with one letter
more. -/
lemma mem_step {states : SortedSet Nat} {w : List Event} {e : Event}
    (h : ∀ t, t ∈ states ↔ Path (fun y e => y.accepts e = true) a s w t) :
    t ∈ a.step states e ↔ Path (fun y e => y.accepts e = true) a s (w ++ [e]) t :=
  mem_epsilonClosure_targets (fun _ => Iff.rfl) h

end Nfa

end Interleaving
