import Interleaving.Proofs.Pattern.Matcher

/-!
# Dead ends

From every state of a built automaton some word leads to the accepting state (`Nfa.finishes_ofPattern`):
each way to build an automaton keeps this, and a term is satisfied by the event that has just the kind
and the field values it asks for. So a matcher has a future as long as it has a state, and it is dead
exactly when no events can bring it to accept any more (`Matcher.isDead_iff_never_accepts`).
-/

namespace Interleaving

variable {α : Type} {suits : EventTerm → α → Prop}

namespace Nfa

variable {a b l r : Nfa} {s t u n : Nat} {x : Label} {w : List α}

/-- From every state some path leads to the accepting one. -/
def Finishes (suits : EventTerm → α → Prop) (a : Nfa) : Prop :=
  ∀ s ≤ a.accepting, ∃ w, Path suits a s w a.accepting

lemma Path.after (e : a.Edge s .epsilon t) (p : Path suits a t w u) : Path suits a s w u :=
  .cons (v := []) e ((Language.mem_one _).mpr rfl) p

lemma Path.upTo (p : Path suits a s w t) (e : a.Edge t .epsilon u) : Path suits a s w u := by
  have path : Path suits a s (w ++ []) u := p.append (.after e .nil)
  rwa [List.append_nil] at path

/-- A path leads to no state beyond the accepting one. -/
lemma Shaped.le_of_path (h : a.Shaped) (p : Path suits a s w t) (le : s ≤ a.accepting) :
    t ≤ a.accepting := by
  induction p with
  | nil => exact le
  | cons e _ _ ih => exact ih (h.target e).2

/-- The letters of a path satisfy terms of the automaton. -/
lemma Path.exists_term (p : Path suits a s w t) : ∀ c ∈ w, ∃ y, a.HasTerm y ∧ suits y c := by
  induction p with
  | nil => exact fun _ mem => absurd mem List.not_mem_nil
  | @cons s t u x v w e hv _ ih =>
    intro c mem
    obtain mem | mem := List.mem_append.mp mem
    · cases x with
      | epsilon =>
        cases (Language.mem_one v).mp hv
        cases mem
      | event y =>
        obtain ⟨c', sat, rfl⟩ := hv
        cases List.mem_singleton.mp mem
        exact ⟨y, ⟨s, t, e⟩, sat⟩
    · exact ih c mem

lemma finishes_basic (h : ∃ w, w ∈ x.language suits) : (basic x).Finishes suits := by
  have last : (basic x).accepting = 1 := rfl
  intro s le
  rw [last] at le ⊢
  obtain rfl | rfl : s = 0 ∨ s = 1 := by omega
  · obtain ⟨w, mem⟩ := h
    exact ⟨w ++ [], .cons (edge_basic.mpr ⟨rfl, rfl, rfl⟩) mem .nil⟩
  · exact ⟨[], .nil⟩

lemma finishes_alternation (hl : l.Shaped) (hr : r.Shaped) (fl : l.Finishes suits)
    (fr : r.Finishes suits) : (alternation l r).Finishes suits := by
  have edge {s x t} := (edge_alternation (s := s) (x := x) (t := t) hl hr).mpr
  have inLeft {s : Nat} (le : s ≤ l.accepting) :
      ∃ w, Path suits (alternation l r) (s + 1) w (l.accepting + r.accepting + 3) := by
    obtain ⟨w, p⟩ := fl s le
    have p : Path suits (alternation l r) (s + 1) w (l.accepting + 1) :=
      p.embed fun e => edge (.inr (.inr (.inl ⟨_, _, rfl, rfl, e⟩)))
    exact ⟨w, p.upTo (edge (.inr (.inl ⟨.inl rfl, rfl, rfl⟩)))⟩
  have inRight {s : Nat} (le : s ≤ r.accepting) :
      ∃ w, Path suits (alternation l r) (s + (l.accepting + 2)) w
        (l.accepting + r.accepting + 3) := by
    obtain ⟨w, p⟩ := fr s le
    have p : Path suits (alternation l r) (s + (l.accepting + 2)) w
        (r.accepting + (l.accepting + 2)) :=
      p.embed fun e => edge (.inr (.inr (.inr ⟨_, _, rfl, rfl, e⟩)))
    exact ⟨w, p.upTo (edge (.inr (.inl ⟨.inr rfl, rfl, rfl⟩)))⟩
  intro s le
  rw [accepting_alternation hl hr]
  obtain rfl | ⟨s', le', rfl⟩ | ⟨s', le', rfl⟩ | rfl := cases_alternation hl hr le
  · obtain ⟨w, p⟩ := inLeft (Nat.zero_le _)
    exact ⟨w, p.after (edge (.inl ⟨rfl, rfl, .inl rfl⟩))⟩
  · exact inLeft le'
  · exact inRight le'
  · exact ⟨[], .nil⟩

lemma finishes_concatenation (hl : l.Shaped) (fl : l.Finishes suits) (fr : r.Finishes suits) :
    (concatenation l r).Finishes suits := by
  have inRight {s : Nat} (le : s ≤ r.accepting) :
      ∃ w, Path suits (concatenation l r) (s + l.accepting) w (r.accepting + l.accepting) := by
    obtain ⟨w, p⟩ := fr s le
    exact ⟨w, p.embed fun e => (edge_concatenation hl).mpr (.inr ⟨_, _, rfl, rfl, e⟩)⟩
  intro s le
  rw [accepting_concatenation hl]
  obtain left | ⟨s', le', rfl⟩ := cases_concatenation hl le
  · -- The left part is left at the joint, where the right one begins.
    obtain ⟨v, p⟩ := fl s left
    have p : Path suits (concatenation l r) s v (0 + l.accepting) := by
      rw [Nat.zero_add]
      exact p.embed (n := 0) fun e => (edge_concatenation hl).mpr (.inl e)
    obtain ⟨w, q⟩ := inRight (Nat.zero_le _)
    exact ⟨v ++ w, p.append q⟩
  · exact inRight le'

lemma finishes_star (h : a.Shaped) (f : a.Finishes suits) : (star a).Finishes suits := by
  have edge {s x t} := (edge_star (s := s) (x := x) (t := t) h).mpr
  intro s le
  rw [accepting_star h]
  obtain rfl | ⟨s', le', rfl⟩ | rfl := cases_star h le
  · exact ⟨[], .after (edge (.inl ⟨.inl rfl, rfl, .inr rfl⟩)) .nil⟩
  · obtain ⟨w, p⟩ := f s' le'
    have p : Path suits (star a) (s' + 1) w (a.accepting + 1) :=
      p.embed fun e => edge (.inr ⟨_, _, rfl, rfl, e⟩)
    exact ⟨w, p.upTo (edge (.inl ⟨.inr rfl, rfl, .inr rfl⟩))⟩
  · exact ⟨[], .nil⟩

/-- If every term of a pattern has a letter, every state of its automaton is on a way to the
accepting one. -/
lemma finishes_ofPattern (p : Pattern) (h : ∀ y ∈ p.terms, ∃ c, suits y c) :
    (ofPattern p).Finishes suits := by
  induction p with
  | empty => exact finishes_basic ⟨[], (Language.mem_one _).mpr rfl⟩
  | event y =>
    obtain ⟨c, sat⟩ := h y (List.mem_singleton.mpr rfl)
    exact finishes_basic ⟨[c], c, sat, rfl⟩
  | alt l r ihl ihr =>
    exact finishes_alternation (shaped_ofPattern l) (shaped_ofPattern r)
      (ihl fun y mem => h y (List.mem_append_left _ mem))
      (ihr fun y mem => h y (List.mem_append_right _ mem))
  | seq l r ihl ihr =>
    exact finishes_concatenation (shaped_ofPattern l)
      (ihl fun y mem => h y (List.mem_append_left _ mem))
      (ihr fun y mem => h y (List.mem_append_right _ mem))
  | star p ih => exact finishes_star (shaped_ofPattern p) (ih h)
  | maybe p ih =>
    exact finishes_alternation shaped_basic (shaped_ofPattern p)
      (finishes_basic ⟨[], (Language.mem_one _).mpr rfl⟩) (ih h)

end Nfa

/-- A term is satisfied by the event that has its name for a kind and its conditions for fields. -/
lemma EventTerm.exists_accepts (t : EventTerm) : ∃ e, t.Accepts e := by
  refine ⟨⟨t.name, t.constraints⟩, ?_⟩
  rw [Accepts, accepts, Bool.and_eq_true, List.all_eq_true]
  refine ⟨by simp, fun (field, value) mem => ?_⟩
  rw [SortedMap.mem_toList_iff] at mem
  simp [mem]

/-- An event that satisfies a term of a pattern is of interest. -/
lemma Pattern.isInteresting_of_accepts {p : Pattern} {t : EventTerm} {e : Event} (mem : t ∈ p.terms)
    (sat : t.Accepts e) : p.isInteresting e.kind = true := by
  rw [EventTerm.Accepts, EventTerm.accepts, Bool.and_eq_true] at sat
  exact List.any_eq_true.mpr ⟨t, mem, sat.1⟩

namespace Matcher

variable {m : Matcher} {p : Pattern} {v w : List Event}

lemma foldl_note_event (seen : List Event) : (w.map Input.event).foldl note seen = seen ++ w := by
  induction w generalizing seen with
  | nil => exact (List.append_nil seen).symm
  | cons e w ih =>
    rw [List.map_cons, List.foldl_cons, ih, note, List.append_assoc]
    rfl

/-- After more events a matcher is where its automaton can be after those of interest among them. -/
lemma Follows.feedEvents (h : m.Follows p v) (interest : v.filter (p.isInteresting ·.kind) = v) :
    (m.feed (w.map .event)).Follows p (v ++ w.filter (p.isInteresting ·.kind)) := by
  have h : (m.feed (w.map .event)).Follows p _ := (interest.symm ▸ h : m.Follows p _).feed
  rwa [foldl_note_event, List.filter_append, interest] at h

/-- A matcher that has a state can be brought to accept. -/
lemma Follows.exists_accepting (h : m.Follows p v)
    (interest : v.filter (p.isInteresting ·.kind) = v) {t : Nat} (mem : t ∈ m.current) :
    ∃ w : List Event, (m.feed (w.map .event)).isAccepting = true := by
  have path := (h.current t).mp mem
  have le := (Nfa.shaped_ofPattern p).le_of_path path (Nat.zero_le _)
  obtain ⟨w, rest⟩ := Nfa.finishes_ofPattern p (fun y _ => y.exists_accepts) t le
  have keep : w.filter (p.isInteresting ·.kind) = w := by
    refine List.filter_eq_self.mpr fun e mem => ?_
    obtain ⟨y, has, sat⟩ := rest.exists_term e mem
    exact Pattern.isInteresting_of_accepts ((Nfa.hasTerm_ofPattern p).mp has) sat
  have h' := h.feedEvents (w := w) interest
  rw [keep] at h'
  refine ⟨w, ?_⟩
  rw [isAccepting, SortedSet.contains_iff, h'.nfa, h'.current]
  exact path.append rest

/-- A matcher without a state never accepts again. -/
lemma Follows.not_isAccepting (h : m.Follows p v)
    (interest : v.filter (p.isInteresting ·.kind) = v) (none : ∀ t, t ∉ m.current) :
    ¬ (m.feed (w.map .event)).isAccepting = true := by
  have h' := h.feedEvents (w := w) interest
  rw [isAccepting, SortedSet.contains_iff, h'.nfa, h'.current]
  exact Nfa.not_path_append (fun t path => none t ((h.current t).mpr path)) _ _

/-- A matcher of a pattern, given any events and resets, is dead if and only if no events that may
follow, none at all included, leave it accepting. -/
theorem isDead_iff_never_accepts (p : Pattern) (inputs : List Input) :
    ((ofPattern p).feed inputs).isDead = true ↔
      ∀ w : List Event,
        ¬ (((ofPattern p).feed inputs).feed (w.map .event)).isAccepting = true := by
  have h : ((ofPattern p).feed inputs).Follows p
      ((sinceReset inputs).filter (p.isInteresting ·.kind)) := follows_ofPattern.feed
  have interest : ((sinceReset inputs).filter (p.isInteresting ·.kind)).filter
      (p.isInteresting ·.kind) = (sinceReset inputs).filter (p.isInteresting ·.kind) := by
    rw [List.filter_filter]
    simp only [Bool.and_self]
  rw [isDead, SortedSet.isEmpty_iff]
  constructor
  · exact fun none w => h.not_isAccepting interest none
  · intro never t mem
    obtain ⟨w, accepting⟩ := h.exists_accepting interest mem
    exact never w accepting

end Matcher

end Interleaving
