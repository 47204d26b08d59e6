import Mathlib
import Interleaving.Proofs.Pattern.Matcher
import Interleaving.Session.Observer

/-!
# Summaries of runs

An observer goes through one run after the other. Since it begins each of them anew
(`RunObserver.observe_foldl`), the summary after a run is that of this run alone: its pairs of receiver
and event, its events of interest, whether some of them, taken from the first on, make a match, and where
the automaton has been after each (`RunObserver.summary_observe`).
-/

namespace Interleaving

/-- An event and the actor that takes it from its inbox. -/
structure Dequeue where
  receiver : String
  event : Event
deriving DecidableEq

namespace Dequeue

/-- The name of the pair of receiver and event. -/
def key (d : Dequeue) : String := EventCoverage.key d.receiver d.event.kind

end Dequeue

/-- The events of a run that are of interest to the pattern, in their order. -/
def Pattern.interestingOf (p : Pattern) (run : List Dequeue) : List Event :=
  (run.map (·.event)).filter (p.isInteresting ·.kind)

lemma Pattern.interestingOf_concat {p : Pattern} {run : List Dequeue} {d : Dequeue} :
    p.interestingOf (run ++ [d]) =
      p.interestingOf run ++ [d.event].filter (p.isInteresting ·.kind) := by
  rw [interestingOf, List.map_append, List.filter_append]
  rfl

/-- Something is true of the first so many letters of a word, and of one letter at least. -/
def OfSomePrefix {α : Type} (w : List α) (P : List α → Prop) : Prop :=
  ∃ u, u ≠ [] ∧ u <+: w ∧ P u

section Prefixes

variable {α : Type} {w : List α} {P Q : List α → Prop} {a : α}

lemma not_ofSomePrefix_nil : ¬ OfSomePrefix [] P := by
  rintro ⟨u, ne, pre, -⟩
  exact ne (List.prefix_nil.mp pre)

lemma ofSomePrefix_concat : OfSomePrefix (w ++ [a]) P ↔ OfSomePrefix w P ∨ P (w ++ [a]) := by
  constructor
  · rintro ⟨u, ne, pre, h⟩
    rcases List.prefix_concat_iff.mp pre with rfl | pre
    · exact .inr h
    · exact .inl ⟨u, ne, pre, h⟩
  · rintro (⟨u, ne, pre, h⟩ | h)
    · exact ⟨u, ne, pre.trans (List.prefix_append w [a]), h⟩
    · exact ⟨w ++ [a], List.append_ne_nil_of_right_ne_nil w (List.cons_ne_nil a []),
        List.prefix_refl _, h⟩

end Prefixes

namespace PatternObserver

variable {o : PatternObserver} {p : Pattern} {w : List Event} {e : Event}

lemma reset_onDequeue : (o.onDequeue e).reset = o.reset := by
  rw [onDequeue]
  split
  · next interesting =>
    rw [Matcher.matchOne, if_pos interesting]
    rfl
  · rfl

/-- What an observer of the pattern knows after the events of interest `w`. -/
structure Describes (o : PatternObserver) (p : Pattern) (w : List Event) : Prop where
  follows : o.matcher.Follows p w
  events : o.matchedEvents.toList = w.map (·.kind)
  matched : o.matched = true ↔ OfSomePrefix w (· ∈ p.language EventTerm.Accepts)
  visited : ∀ t, t ∈ o.matcher.visited ↔
    OfSomePrefix w (Nfa.Path EventTerm.Accepts (.ofPattern p) 0 · t)

lemma describes_ofMatcher : (ofMatcher (.ofPattern p)).Describes p [] where
  follows := Matcher.follows_ofPattern
  events := rfl
  matched := ⟨fun h => absurd h Bool.false_ne_true, fun h => absurd h not_ofSomePrefix_nil⟩
  visited _ := ⟨fun h => absurd h SortedSet.not_mem_empty, fun h => absurd h not_ofSomePrefix_nil⟩

lemma onDequeue_of_not_interesting (h : o.Describes p w) (he : ¬ p.isInteresting e.kind = true) :
    o.onDequeue e = o := by
  rw [onDequeue, h.follows.interesting, Matcher.contains_interestingEvents, if_neg he]

lemma onDequeue_of_interesting (h : o.Describes p w) (he : p.isInteresting e.kind = true) :
    o.onDequeue e =
      ⟨(o.matcher.matchOne e).2, o.matched || (o.matcher.matchOne e).1, o.matchedEvents.push e.kind⟩ := by
  rw [onDequeue, h.follows.interesting, Matcher.contains_interestingEvents, if_pos he]

lemma Describes.onDequeue (h : o.Describes p w) :
    (o.onDequeue e).Describes p (w ++ [e].filter (p.isInteresting ·.kind)) := by
  have follows := h.follows.matchOne (e := e)
  by_cases he : p.isInteresting e.kind = true
  case neg =>
    have dropped : [e].filter (p.isInteresting ·.kind) = [] := by simpa using he
    rw [onDequeue_of_not_interesting h he, dropped, List.append_nil]
    exact h
  have kept : [e].filter (p.isInteresting ·.kind) = [e] := by simpa using he
  rw [kept] at follows ⊢
  rw [onDequeue_of_interesting h he]
  constructor
  case follows => exact follows
  case events =>
    rw [Array.toList_push, h.events, List.map_append]
    rfl
  case matched =>
    rw [Bool.or_eq_true, h.matched, h.follows.fst_matchOne, follows.isAccepting_iff,
      ofSomePrefix_concat]
    exact or_congr_right (and_iff_right he)
  case visited =>
    intro t
    have reached := follows.current t
    rw [Matcher.matchOne_of_interesting h.follows he] at reached ⊢
    rw [ofSomePrefix_concat, ← h.visited, ← reached]
    exact SortedSet.mem_union

end PatternObserver

namespace EventCoverage

variable {c : EventCoverage} {receiver event : String}

lemma mem_keys {k : String} : k ∈ c.keys ↔ c.hits.contains k = true := by
  rw [keys, SortedSet.mem_ofList, SortedMap.mem_keys_iff]

lemma mem_keys_record {k : String} :
    k ∈ (c.record receiver event).keys ↔ k = key receiver event ∨ k ∈ c.keys := by
  rw [mem_keys, mem_keys]
  exact SortedMap.contains_alter

end EventCoverage

namespace RunObserver

variable {o : RunObserver} {p : Pattern} {run : List Dequeue}

/-- Takes note of the events of a run. -/
def watch (o : RunObserver) (run : List Dequeue) : RunObserver :=
  run.foldl (fun o d => o.onDequeue d.receiver d.event) o

/-- Begins anew and takes note of the events of a run. -/
def observe (o : RunObserver) (run : List Dequeue) : RunObserver := o.reset.watch run

lemma reset_onDequeue (receiver : String) (e : Event) : (o.onDequeue receiver e).reset = o.reset := by
  rw [onDequeue, reset, reset, Option.map_map]
  congr 2
  funext q
  exact PatternObserver.reset_onDequeue

lemma reset_watch : (o.watch run).reset = o.reset := by
  induction run generalizing o with
  | nil => rfl
  | cons d run ih => exact ih.trans (reset_onDequeue d.receiver d.event)

lemma reset_reset : o.reset.reset = o.reset := by
  rw [reset, reset, Option.map_map]
  rfl

/-- Nothing of the earlier runs is left. -/
lemma observe_foldl (earlier : List (List Dequeue)) :
    (earlier.foldl observe o).observe run = o.observe run := by
  induction earlier generalizing o with
  | nil => rfl
  | cons first earlier ih =>
    rw [List.foldl_cons, ih, observe, observe, reset_watch, reset_reset]
    rfl

lemma exists_describes_watch (run : List Dequeue) : ∃ q,
    ((ofMatcher (some (.ofPattern p))).watch run).pattern = some q ∧
      q.Describes p (p.interestingOf run) := by
  induction run using List.reverseRecOn with
  | nil => exact ⟨_, rfl, PatternObserver.describes_ofMatcher⟩
  | append_singleton run d ih =>
    obtain ⟨q, pattern, describes⟩ := ih
    refine ⟨q.onDequeue d.event, ?_, ?_⟩
    · rw [watch, List.foldl_append, List.foldl_cons, List.foldl_nil, onDequeue]
      exact congrArg (Option.map _) pattern
    · rw [Pattern.interestingOf_concat]
      exact describes.onDequeue

lemma mem_keys_watch {k : String} :
    k ∈ (o.watch run).coverage.keys ↔ k ∈ run.map Dequeue.key ∨ k ∈ o.coverage.keys := by
  induction run generalizing o with
  | nil => exact ⟨.inr, fun h => h.resolve_left List.not_mem_nil⟩
  | cons d run ih =>
    rw [watch, List.foldl_cons, List.map_cons, List.mem_cons]
    refine ih.trans ?_
    rw [onDequeue, EventCoverage.mem_keys_record, ← or_assoc, or_comm (a := k ∈ _)]
    exact Iff.rfl

lemma keys_watch_ofMatcher (matcher : Option Matcher) :
    ((ofMatcher matcher).watch run).coverage.keys = .ofList (run.map Dequeue.key) := by
  apply SortedSet.ext
  intro k
  rw [mem_keys_watch, SortedSet.mem_ofList]
  exact or_iff_left SortedSet.not_mem_empty

/-- The summary after a run, whatever runs the observer has gone through before. -/
theorem summary_observe (p : Pattern) (earlier : List (List Dequeue)) (run : List Dequeue)
    (steps : Nat) (bugFound : Bool) :
    let new := ofMatcher (some (.ofPattern p))
    let summary := ((earlier.foldl observe new).observe run).summary steps bugFound
    summary.eventCoverage = .ofList (run.map Dequeue.key) ∧
    summary.matchedEvents = (p.interestingOf run).map (·.kind) ∧
    (summary.patternMatched = true ↔
      ∃ w, w ≠ [] ∧ w <+: p.interestingOf run ∧ w ∈ p.language EventTerm.Accepts) ∧
    (∀ t, t ∈ summary.visitedStates ↔ ∃ w, w ≠ [] ∧ w <+: p.interestingOf run ∧
      Nfa.Path EventTerm.Accepts (.ofPattern p) (Nfa.ofPattern p).initial w t) ∧
    summary = (new.observe run).summary steps bugFound := by
  intro new summary
  have alone : summary = (new.watch run).summary steps bugFound :=
    congrArg (·.summary steps bugFound) (observe_foldl earlier)
  obtain ⟨q, pattern, describes⟩ := exists_describes_watch (p := p) run
  rw [alone]
  refine ⟨keys_watch_ofMatcher _, ?_, ?_, ?_, rfl⟩
  · rw [RunObserver.summary, pattern]
    exact describes.events
  · rw [RunObserver.summary, pattern]
    exact describes.matched
  · rw [RunObserver.summary, pattern, (Nfa.shaped_ofPattern p).initial]
    exact describes.visited

end RunObserver

end Interleaving
