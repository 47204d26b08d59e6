import Interleaving.Pattern.Matcher
import Interleaving.Proofs.Pattern.Closure
import Interleaving.Proofs.Pattern.Thompson

/-!
# Matching a pattern

A matcher that was built from a pattern, given any events and told to begin again at any time,
accepts exactly when the events of interest since it last began form a word of the pattern's
language (`Matcher.isAccepting_iff_mem_language`).
-/

namespace Interleaving

/-- The event satisfies the term. -/
def EventTerm.Accepts (t : EventTerm) (e : Event) : Prop := t.accepts e = true

/-- Whether a kind is one that the pattern names; a pattern with `.` names every kind. -/
def Pattern.isInteresting (p : Pattern) (kind : String) : Bool :=
  p.terms.any fun t => t.isAny || t.name == kind

namespace Matcher

variable {m : Matcher} {p : Pattern} {w : List Event} {e : Event}

/-- What a matcher is given: an event, or the order to begin again. -/
inductive Input where
  | event (e : Event)
  | reset

/-- Takes one input. -/
def take (m : Matcher) : Input → Matcher
  | .event e => (m.matchOne e).2
  | .reset => m.reset

/-- Takes inputs one after another. -/
def feed (m : Matcher) (inputs : List Input) : Matcher := inputs.foldl take m

/-- The events seen after one more input, when `seen` are those since the last reset. -/
def note (seen : List Event) : Input → List Event
  | .event e => seen ++ [e]
  | .reset => []

/-- The events since the last reset. -/
def sinceReset (inputs : List Input) : List Event := inputs.foldl note []

section Interest

variable {x : EventTerm} {kind : String}

lemma mem_inputSymbols {a : Nfa} : x ∈ a.inputSymbols ↔ a.HasTerm x := by
  rw [Nfa.inputSymbols, SortedSet.mem_ofList, List.mem_filterMap]
  constructor
  · rintro ⟨⟨s, t, l⟩, h, hx⟩
    cases l with
    | epsilon => cases hx
    | event y =>
      cases hx
      exact ⟨s, t, Nfa.mem_transitions.mp h⟩
  · rintro ⟨s, t, h⟩
    exact ⟨⟨s, t, .event x⟩, Nfa.mem_transitions.mpr h, rfl⟩

lemma mem_kinds_ofPattern :
    kind ∈ (Nfa.ofPattern p).interestingEvents.kinds ↔ ∃ t ∈ p.terms, t.name = kind := by
  simp only [Nfa.interestingEvents, InterestingEvents.ofList, SortedSet.mem_ofList, List.mem_map,
    SortedSet.mem_toList, mem_inputSymbols, Nfa.hasTerm_ofPattern]

lemma contains_interestingEvents :
    (Nfa.ofPattern p).interestingEvents.contains kind = p.isInteresting kind := by
  rw [Bool.eq_iff_iff, InterestingEvents.contains, InterestingEvents.matchesAny, Bool.or_eq_true,
    SortedSet.contains_iff, SortedSet.contains_iff, mem_kinds_ofPattern, mem_kinds_ofPattern,
    Pattern.isInteresting, List.any_eq_true]
  constructor
  · rintro (⟨t, ht, h⟩ | ⟨t, ht, h⟩)
    · exact ⟨t, ht, by simp [EventTerm.isAny, h]⟩
    · exact ⟨t, ht, by simp [h]⟩
  · rintro ⟨t, ht, h⟩
    obtain h | h := (Bool.or_eq_true _ _).mp h
    · exact .inl ⟨t, ht, eq_of_beq h⟩
    · exact .inr ⟨t, ht, eq_of_beq h⟩

end Interest

/-- The matcher is the pattern's, and is where its automaton can be after the word `w`. -/
structure Follows (m : Matcher) (p : Pattern) (w : List Event) : Prop where
  nfa : m.nfa = .ofPattern p
  interesting : m.interesting = (Nfa.ofPattern p).interestingEvents
  current : ∀ t, t ∈ m.current ↔ Nfa.Path EventTerm.Accepts (.ofPattern p) 0 w t

lemma mem_startStates {t : Nat} : t ∈ (Nfa.ofPattern p).startStates ↔
    Nfa.Path EventTerm.Accepts (.ofPattern p) 0 [] t := by
  rw [Nfa.mem_startStates, (Nfa.shaped_ofPattern p).initial, Nfa.path_nil]

lemma follows_ofPattern : (ofPattern p).Follows p [] where
  nfa := rfl
  interesting := rfl
  current _ := mem_startStates

lemma Follows.reset (h : m.Follows p w) : m.reset.Follows p [] where
  nfa := h.nfa
  interesting := h.interesting
  current t := by
    have e : m.reset.current = (Nfa.ofPattern p).startStates := by
      rw [← h.nfa]
      rfl
    rw [e]
    exact mem_startStates

lemma matchOne_of_interesting (h : m.Follows p w) (he : p.isInteresting e.kind = true) :
    m.matchOne e = (Matcher.isAccepting { m with current := m.nfa.step m.current e },
      { m with current := m.nfa.step m.current e,
               visited := m.visited.union (m.nfa.step m.current e) }) := by
  rw [matchOne, h.interesting, contains_interestingEvents, if_pos he]
  rfl

lemma matchOne_of_not_interesting (h : m.Follows p w) (he : ¬ p.isInteresting e.kind = true) :
    m.matchOne e = (false, m) := by
  rw [matchOne, h.interesting, contains_interestingEvents, if_neg he]

lemma Follows.matchOne (h : m.Follows p w) :
    (m.matchOne e).2.Follows p (w ++ [e].filter (p.isInteresting ·.kind)) := by
  by_cases he : p.isInteresting e.kind = true
  · have keep : [e].filter (p.isInteresting ·.kind) = [e] := List.filter_eq_self.mpr (by simpa)
    rw [matchOne_of_interesting h he, keep]
    refine ⟨h.nfa, h.interesting, fun t => ?_⟩
    show t ∈ m.nfa.step m.current e ↔ _
    rw [h.nfa]
    exact Nfa.mem_step h.current
  · have drop : [e].filter (p.isInteresting ·.kind) = [] := List.filter_eq_nil_iff.mpr (by simp [he])
    rw [matchOne_of_not_interesting h he, drop, List.append_nil]
    exact h

lemma Follows.take {seen : List Event} {i : Input}
    (h : m.Follows p (seen.filter (p.isInteresting ·.kind))) :
    (m.take i).Follows p ((note seen i).filter (p.isInteresting ·.kind)) := by
  cases i with
  | event e =>
    rw [note, List.filter_append]
    exact h.matchOne
  | reset => exact h.reset

lemma Follows.feed {seen : List Event} {inputs : List Input}
    (h : m.Follows p (seen.filter (p.isInteresting ·.kind))) :
    (m.feed inputs).Follows p ((inputs.foldl note seen).filter (p.isInteresting ·.kind)) := by
  induction inputs generalizing m seen with
  | nil => exact h
  | cons i inputs ih => exact ih h.take

lemma Follows.isAccepting_iff (h : m.Follows p w) :
    m.isAccepting = true ↔ w ∈ p.language EventTerm.Accepts := by
  rw [isAccepting, SortedSet.contains_iff, h.nfa, h.current, ← Nfa.language_ofPattern,
    (Nfa.shaped_ofPattern p).language_eq]
  exact Iff.rfl

lemma Follows.fst_matchOne (h : m.Follows p w) : (m.matchOne e).1 = true ↔
    p.isInteresting e.kind = true ∧ (m.matchOne e).2.isAccepting = true := by
  by_cases he : p.isInteresting e.kind = true
  · rw [matchOne_of_interesting h he]
    exact ⟨fun a => ⟨he, a⟩, And.right⟩
  · rw [matchOne_of_not_interesting h he]
    exact ⟨fun a => absurd a Bool.false_ne_true, fun a => absurd a.1 he⟩

/-- A matcher of a pattern, given any events and resets, accepts if and only if the events of
interest since the last reset are a word of the pattern's language; and it answers an event with
true if and only if the event is of interest and the matcher then accepts. -/
theorem isAccepting_iff_mem_language (p : Pattern) (inputs : List Input) :
    (((ofPattern p).feed inputs).isAccepting = true ↔
      (sinceReset inputs).filter (p.isInteresting ·.kind) ∈ p.language EventTerm.Accepts) ∧
    ∀ e, (((ofPattern p).feed inputs).matchOne e).1 = true ↔
      p.isInteresting e.kind = true ∧
        (((ofPattern p).feed inputs).matchOne e).2.isAccepting = true := by
  have h : ((ofPattern p).feed inputs).Follows p
      ((sinceReset inputs).filter (p.isInteresting ·.kind)) := follows_ofPattern.feed
  exact ⟨h.isAccepting_iff, fun e => h.fst_matchOne⟩

end Matcher

end Interleaving
