import Mathlib
import Interleaving.Proofs.Clock
import Interleaving.Race

/-!
# Races found

A monitor is told of sends and of resets, in any order. Two sites race for it exactly if two of the
sends came from them, between the same two resets, and were not ordered (`RaceMonitor.exact_record`).

The relation is kept at both sites of a race, so what is noted for all sites together, the edges, is
twice what has been answered (`Paired`). Each comparison of two sends keeps that, since it notes two
new edges or none, and the pairs that are listed are one half of the edges.
-/

namespace Interleaving

namespace RaceMonitor

/-- What a monitor is told. -/
inductive RaceEvent where
  /-- There was a send from a site, with this clock. -/
  | send (site : SendSite) (clock : VectorClock)
  /-- A run is over. -/
  | reset

/-- The site has sent with the clock since the last reset. -/
def Recent (events : List RaceEvent) (site : SendSite) (clock : VectorClock) : Prop :=
  ∃ before since, events = before ++ .send site clock :: since ∧ .reset ∉ since

/-- Between two resets there was a send from `a` and then one from `b`, to the same receiver and from
different senders, and their clocks are not ordered. -/
def Raced (events : List RaceEvent) (a b : SendSite) : Prop :=
  ∃ before between after c d,
    events = before ++ .send a c :: (between ++ .send b d :: after) ∧ .reset ∉ between ∧
      a.receiver = b.receiver ∧ a.sender ≠ b.sender ∧ c.Unordered d

section Histories

variable {events : List RaceEvent} {site a b : SendSite} {clock c : VectorClock}

lemma not_recent_nil : ¬ Recent [] site clock := by
  rintro ⟨before, since, e, _⟩
  simp at e

lemma not_recent_reset : ¬ Recent (events ++ [.reset]) site clock := by
  rintro ⟨before, since, e, clean⟩
  rcases List.eq_nil_or_concat' since with rfl | ⟨since, last, rfl⟩
  · simpa using congrArg List.getLast? e
  · rw [← List.cons_append, ← List.append_assoc] at e
    obtain ⟨_, last⟩ := List.append_inj' e rfl
    cases last
    simp at clean

lemma recent_send : Recent (events ++ [.send a c]) site clock ↔
    (site = a ∧ clock = c) ∨ Recent events site clock := by
  constructor
  · rintro ⟨before, since, e, clean⟩
    rcases List.eq_nil_or_concat' since with rfl | ⟨since, last, rfl⟩
    · obtain ⟨_, last⟩ := List.append_inj' e rfl
      cases last
      exact .inl ⟨rfl, rfl⟩
    · rw [← List.cons_append, ← List.append_assoc] at e
      obtain ⟨rfl, _⟩ := List.append_inj' e rfl
      exact .inr ⟨before, since, rfl, fun h => clean (List.mem_append_left _ h)⟩
  · rintro (⟨rfl, rfl⟩ | ⟨before, since, rfl, clean⟩)
    · exact ⟨events, [], rfl, by simp⟩
    · exact ⟨before, since ++ [.send a c], by simp, by simpa using clean⟩

lemma not_raced_nil : ¬ Raced [] a b := by
  rintro ⟨before, between, after, c, d, e, _⟩
  simp at e

lemma raced_append {more : List RaceEvent} (h : Raced events a b) : Raced (events ++ more) a b := by
  obtain ⟨before, between, after, c, d, rfl, rest⟩ := h
  exact ⟨before, between, after ++ more, c, d, by simp, rest⟩

/-- Either the race was there before the last event, or the last event is the later of its sends. -/
lemma raced_concat {event : RaceEvent} : Raced (events ++ [event]) a b ↔
    Raced events a b ∨ ∃ c d, event = .send b d ∧ Recent events a c ∧
      a.receiver = b.receiver ∧ a.sender ≠ b.sender ∧ c.Unordered d := by
  constructor
  · rintro ⟨before, between, after, c, d, e, clean, rest⟩
    rcases List.eq_nil_or_concat' after with rfl | ⟨after, last, rfl⟩
    · rw [← List.cons_append, ← List.append_assoc] at e
      obtain ⟨rfl, last⟩ := List.append_inj' e rfl
      exact .inr ⟨c, d, List.singleton_injective last, ⟨before, between, rfl, clean⟩, rest⟩
    · simp only [← List.cons_append, ← List.append_assoc] at e
      obtain ⟨rfl, _⟩ := List.append_inj' e rfl
      exact .inl ⟨before, between, after, c, d, by simp, clean, rest⟩
  · rintro (h | ⟨c, d, rfl, ⟨before, since, rfl, clean⟩, rest⟩)
    · exact raced_append h
    · exact ⟨before, since, [], c, d, by simp, clean, rest⟩

end Histories

variable {m : RaceMonitor} {a b x y : SendSite} {site : SendSite} {clock : VectorClock}
variable {events : List RaceEvent}

/-- Tells a monitor of an event. The answer is the number of new pairs. -/
def tell (m : RaceMonitor) : RaceEvent → Nat × RaceMonitor
  | .send site clock => m.onSend site.sender site.location site.receiver clock
  | .reset => (0, m.reset)

/-- What a monitor that was told of some events has answered altogether, and the monitor. -/
def record (events : List RaceEvent) : Nat × RaceMonitor :=
  events.foldl (fun (answered, m) event => (m.tell event).map (answered + ·) id) (0, .empty)

lemma tell_send : m.tell (.send site clock) =
    let found := ((m.history.get? site.receiver).getD []).foldl (compareWith site clock) (0, m)
    (found.1, { found.2 with
      history := found.2.history.alter site.receiver fun present =>
        present.getD [] ++ [(site, clock)] }) := rfl

lemma record_concat (event : RaceEvent) : record (events ++ [event]) =
    (((record events).2.tell event).map ((record events).1 + ·) id) := by
  simp only [record, List.foldl_append, List.foldl_cons, List.foldl_nil]

lemma sitesRace_noteAt :
    (m.noteAt a b).sitesRace x y = true ↔ m.sitesRace x y = true ∨ (x = a ∧ y = b) := by
  simp only [sitesRace, conflictsOf, noteAt, SortedMap.get?_alter, SortedSet.contains_iff]
  split
  · next e =>
    rw [Option.getD_some, SortedSet.mem_insert, e, or_comm]
    simp only [true_and]
  · next ne => simp only [ne, false_and, or_false]

lemma sitesRace_note : (m.note a b).sitesRace x y = true ↔
    m.sitesRace x y = true ∨ (x = a ∧ y = b) ∨ (x = b ∧ y = a) := by
  rw [note, sitesRace_noteAt, sitesRace_noteAt, or_assoc]

/-- A send that is compared with an earlier one races with it. -/
def RacesWith (site : SendSite) (clock : VectorClock) (prior : SendSite × VectorClock) : Prop :=
  prior.1.sender ≠ site.sender ∧ clock.Unordered prior.2

lemma compareWith_eq (site : SendSite) (clock : VectorClock) (found : Nat × RaceMonitor)
    (prior : SendSite × VectorClock) :
    (RacesWith site clock prior ∧ compareWith site clock found prior =
      (if found.2.sitesRace site prior.1 then found.1 else found.1 + 1,
        found.2.note site prior.1)) ∨
    (¬ RacesWith site clock prior ∧ compareWith site clock found prior = found) := by
  rw [compareWith]
  split
  · next h =>
    refine .inr ⟨?_, rfl⟩
    rintro ⟨ne, unordered⟩
    rw [← VectorClock.concurrent_iff] at unordered
    simp_all
  · next h =>
    rw [Bool.or_eq_true, not_or, beq_iff_eq, Bool.not_eq_true', Bool.not_eq_false,
      VectorClock.concurrent_iff] at h
    exact .inl ⟨h, rfl⟩

lemma history_compareAll (earlier : List (SendSite × VectorClock)) (found : Nat × RaceMonitor) :
    (earlier.foldl (compareWith site clock) found).2.history = found.2.history := by
  induction earlier generalizing found with
  | nil => rfl
  | cons prior earlier ih =>
    rw [List.foldl_cons, ih]
    rcases compareWith_eq site clock found prior with ⟨_, e⟩ | ⟨_, e⟩ <;> rw [e]
    rfl

lemma sitesRace_compareAll (earlier : List (SendSite × VectorClock)) (found : Nat × RaceMonitor) :
    (earlier.foldl (compareWith site clock) found).2.sitesRace x y = true ↔
      found.2.sitesRace x y = true ∨ ∃ prior ∈ earlier, RacesWith site clock prior ∧
        ((x = site ∧ y = prior.1) ∨ (x = prior.1 ∧ y = site)) := by
  induction earlier generalizing found with
  | nil => simp
  | cons prior earlier ih =>
    rw [List.foldl_cons, ih]
    simp only [List.mem_cons, exists_eq_or_imp, ← or_assoc]
    refine or_congr_left ?_
    rcases compareWith_eq site clock found prior with ⟨h, e⟩ | ⟨h, e⟩
    · simp only [e, sitesRace_note, h, true_and]
    · simp only [e, h, false_and, or_false]

/-- The monitor knows the sends since the last reset, by receiver, and the races of all sends. -/
structure Tracks (events : List RaceEvent) (m : RaceMonitor) : Prop where
  history : ∀ receiver site clock, (site, clock) ∈ (m.history.get? receiver).getD [] ↔
    site.receiver = receiver ∧ Recent events site clock
  sitesRace : ∀ a b, m.sitesRace a b = true ↔ Raced events a b ∨ Raced events b a

lemma tracks_empty : Tracks [] .empty := by
  refine ⟨fun receiver site clock => ?_, fun a b => ?_⟩
  · simp [empty, not_recent_nil]
  · simp [RaceMonitor.sitesRace, conflictsOf, empty, not_raced_nil]

lemma Tracks.reset (T : Tracks events m) : Tracks (events ++ [.reset]) m.reset := by
  refine ⟨fun receiver site clock => ?_, fun a b => ?_⟩
  · simp [RaceMonitor.reset, not_recent_reset]
  · rw [raced_concat, raced_concat]
    simp only [reduceCtorEq, false_and, exists_false, or_false]
    exact T.sitesRace a b

lemma Tracks.send (T : Tracks events m) (site : SendSite) (clock : VectorClock) :
    Tracks (events ++ [.send site clock]) (m.tell (.send site clock)).2 := by
  constructor
  case history =>
    intro receiver site' clock'
    simp only [tell_send, SortedMap.get?_alter, history_compareAll, recent_send]
    split
    · next e =>
      rw [Option.getD_some, List.mem_append, T.history, List.mem_singleton, Prod.mk.injEq]
      grind
    · rw [T.history]
      grind
  case sitesRace =>
    intro a b
    have races : (m.tell (.send site clock)).2.sitesRace a b = true ↔ _ :=
      sitesRace_compareAll ((m.history.get? site.receiver).getD []) (0, m)
    rw [races, T.sitesRace, raced_concat, raced_concat]
    -- The sends that are compared are the recent ones to the same receiver.
    have recent : ∀ prior, prior ∈ (m.history.get? site.receiver).getD [] ↔
        prior.1.receiver = site.receiver ∧ Recent events prior.1 prior.2 :=
      fun prior => T.history site.receiver prior.1 prior.2
    simp only [recent, RacesWith, RaceEvent.send.injEq]
    constructor
    · rintro ((h | h) | ⟨⟨s, c⟩, ⟨same, sent⟩, ⟨ne, unordered⟩, ⟨rfl, rfl⟩ | ⟨rfl, rfl⟩⟩)
      · exact .inl (.inl h)
      · exact .inr (.inl h)
      · exact .inr (.inr ⟨c, clock, ⟨rfl, rfl⟩, sent, same, ne, unordered.symm⟩)
      · exact .inl (.inr ⟨c, clock, ⟨rfl, rfl⟩, sent, same, ne, unordered.symm⟩)
    · rintro ((h | ⟨c, d, ⟨rfl, rfl⟩, sent, same, ne, unordered⟩) |
        (h | ⟨c, d, ⟨rfl, rfl⟩, sent, same, ne, unordered⟩))
      · exact .inl (.inl h)
      · exact .inr ⟨(a, c), ⟨same, sent⟩, ⟨ne, unordered.symm⟩, .inr ⟨rfl, rfl⟩⟩
      · exact .inl (.inr h)
      · exact .inr ⟨(b, c), ⟨same, sent⟩, ⟨ne, unordered.symm⟩, .inl ⟨rfl, rfl⟩⟩

lemma tracks_record (events : List RaceEvent) : Tracks events (record events).2 := by
  induction events using List.reverseRecOn with
  | nil => exact tracks_empty
  | append_singleton events event ih =>
    rw [record_concat]
    cases event with
    | send site clock => exact ih.send site clock
    | reset => exact ih.reset

/-- What is noted at the sites, one entry for each site and each that it races with. -/
def edges (m : RaceMonitor) : List (SendSite × SendSite) :=
  m.conflicts.toList.flatMap fun (a, others) => others.toList.map (a, ·)

lemma mem_edges : (a, b) ∈ m.edges ↔ m.sitesRace a b = true := by
  simp only [edges, List.mem_flatMap, List.mem_map, Prod.mk.injEq, Prod.exists]
  rw [sitesRace, conflictsOf, SortedSet.contains_iff]
  constructor
  · rintro ⟨_, others, mem, _, mem', rfl, rfl⟩
    rw [SortedMap.mem_toList_iff.mp mem]
    exact mem'
  · intro mem
    cases get : m.conflicts.get? a with
    | none => simp [get] at mem
    | some others =>
      rw [get] at mem
      exact ⟨a, others, SortedMap.mem_toList_iff.mpr get, b, mem, rfl, rfl⟩

lemma nodup_edges (m : RaceMonitor) : m.edges.Nodup := by
  refine List.nodup_flatMap.mpr ⟨fun e _ => ?_, m.conflicts.sorted.imp fun {e f} lt => ?_⟩
  · refine List.Nodup.map (Prod.mk_right_injective _) (e.2.sorted.imp ?_)
    rintro a b lt rfl
    simp at lt
  · rintro ⟨a, b⟩ mem mem'
    obtain ⟨_, _, ⟨rfl, _⟩⟩ := List.mem_map.mp mem
    obtain ⟨_, _, e⟩ := List.mem_map.mp mem'
    rw [Prod.mk.injEq] at e
    simp [e.1] at lt

lemma count_eq : m.count = m.edges.length / 2 := by
  simp only [count, edges, List.length_flatMap, List.length_map, SortedMap.values, List.foldr_map,
    List.sum_eq_foldr]
  rfl

/-- An edge goes from a smaller site to a larger one. -/
def rises (e : SendSite × SendSite) : Bool := compare e.1 e.2 == .lt

/-- The pairs listed are the edges from a smaller site to a larger one. -/
lemma toList_pairs (m : RaceMonitor) :
    m.pairs.toList = (m.edges.filter rises).map fun e => ⟨e.1, e.2⟩ := by
  simp only [pairs, edges, List.filter_flatMap, List.map_flatMap, List.filter_map, List.map_map]
  rfl

lemma mem_pairs :
    ⟨a, b⟩ ∈ m.pairs.toList ↔ compare a b = .lt ∧ m.sitesRace a b = true := by
  rw [toList_pairs, ← mem_edges]
  simp only [rises, List.mem_map, List.mem_filter, beq_iff_eq, RacingPair.mk.injEq, Prod.exists]
  grind

lemma nodup_pairs (m : RaceMonitor) : m.pairs.toList.Nodup := by
  rw [toList_pairs]
  refine (m.nodup_edges.filter _).map fun e f h => ?_
  rw [RacingPair.mk.injEq] at h
  exact Prod.ext h.1 h.2

/-- The relation is symmetric, no site races with itself, and twice `answered` edges are noted. -/
structure Paired (answered : Nat) (m : RaceMonitor) : Prop where
  symm : ∀ a b, m.sitesRace a b = true → m.sitesRace b a = true
  irrefl : ∀ a, ¬ m.sitesRace a a = true
  length_edges : m.edges.length = 2 * answered

lemma paired_empty : Paired 0 .empty := by
  refine ⟨fun a b h => ?_, fun a h => ?_, rfl⟩ <;> simp [sitesRace, conflictsOf, empty] at h

/-- Noting that two sites race makes two new edges, or none if they have raced before. -/
lemma Paired.note {n : Nat} (P : Paired n m) (ne : a ≠ b) :
    Paired (if m.sitesRace a b then n else n + 1) (m.note a b) := by
  constructor
  case symm =>
    intro x y h
    rw [sitesRace_note] at h ⊢
    rcases h with h | h | h
    · exact .inl (P.symm x y h)
    · exact .inr (.inr h.symm)
    · exact .inr (.inl h.symm)
  case irrefl =>
    intro x h
    rw [sitesRace_note] at h
    rcases h with h | ⟨rfl, rfl⟩ | ⟨rfl, rfl⟩
    · exact P.irrefl x h
    · exact ne rfl
    · exact ne rfl
  case length_edges =>
    have mem : ∀ e, e ∈ (m.note a b).edges ↔ e ∈ m.edges ∨ e = (a, b) ∨ e = (b, a) := by
      rintro ⟨x, y⟩
      rw [mem_edges, mem_edges, sitesRace_note, Prod.mk.injEq, Prod.mk.injEq]
    by_cases known : m.sitesRace a b = true
    · have same : (m.note a b).edges.Perm m.edges := by
        refine (List.perm_ext_iff_of_nodup (nodup_edges _) (nodup_edges _)).mpr fun e => ?_
        rw [mem]
        refine or_iff_left_of_imp ?_
        rintro (rfl | rfl)
        · exact mem_edges.mpr known
        · exact mem_edges.mpr (P.symm a b known)
      rw [if_pos known, same.length_eq, P.length_edges]
    · have more : (m.note a b).edges.Perm ((a, b) :: (b, a) :: m.edges) := by
        refine (List.perm_ext_iff_of_nodup (nodup_edges _) ?_).mpr fun e => ?_
        · refine List.nodup_cons.mpr ⟨?_, List.nodup_cons.mpr ⟨?_, nodup_edges m⟩⟩
          · rw [List.mem_cons, Prod.mk.injEq, mem_edges]
            rintro (⟨e, _⟩ | h)
            · exact ne e
            · exact known h
          · rw [mem_edges]
            exact fun h => known (P.symm b a h)
        · rw [mem, List.mem_cons, List.mem_cons, or_comm, or_assoc]
      rw [if_neg known, more.length_eq, List.length_cons, List.length_cons, P.length_edges]
      omega

lemma Paired.compareWith {n : Nat} {found : Nat × RaceMonitor} (P : Paired (n + found.1) found.2)
    (prior : SendSite × VectorClock) :
    Paired (n + (RaceMonitor.compareWith site clock found prior).1)
      (RaceMonitor.compareWith site clock found prior).2 := by
  rcases compareWith_eq site clock found prior with ⟨⟨ne, _⟩, e⟩ | ⟨_, e⟩
  · have ne : site ≠ prior.1 := fun same => ne (by rw [same])
    have := P.note ne
    rw [e]
    split
    · next known => rwa [if_pos known] at this
    · next new => rwa [if_neg new] at this
  · rwa [e]

lemma Paired.compareAll {n : Nat} (site : SendSite) (clock : VectorClock)
    (found : Nat × RaceMonitor) (P : Paired (n + found.1) found.2)
    (earlier : List (SendSite × VectorClock)) :
    Paired (n + (earlier.foldl (RaceMonitor.compareWith site clock) found).1)
      (earlier.foldl (RaceMonitor.compareWith site clock) found).2 := by
  induction earlier generalizing found with
  | nil => exact P
  | cons prior earlier ih => exact ih _ (P.compareWith prior)

lemma paired_record (events : List RaceEvent) : Paired (record events).1 (record events).2 := by
  induction events using List.reverseRecOn with
  | nil => exact paired_empty
  | append_singleton events event ih =>
    rw [record_concat]
    -- What an event does to the history is not seen by the relation.
    cases event with
    | send site clock =>
      obtain ⟨symm, irrefl, length⟩ := Paired.compareAll site clock (0, (record events).2) ih
        (((record events).2.history.get? site.receiver).getD [])
      exact ⟨symm, irrefl, length⟩
    | reset => exact ⟨ih.symm, ih.irrefl, ih.length_edges⟩

/-- Of two sites that race one is the smaller. -/
lemma Paired.not_lt_iff {n : Nat} (P : Paired n m) (races : m.sitesRace a b = true) :
    ¬ compare a b = .lt ↔ compare b a = .lt := by
  have ne : ¬ compare a b = .eq := by
    rw [Std.LawfulEqOrd.compare_eq_iff_eq]
    rintro rfl
    exact P.irrefl a races
  have turned : compare a b = .gt ↔ compare b a = .lt := Std.OrientedCmp.gt_iff_lt
  rw [← turned]
  cases h : compare a b <;> simp_all

/-- The edges from a larger site to a smaller one are those from a smaller to a larger, turned round,
so the latter are one half of all. -/
lemma Paired.size_pairs {n : Nat} (P : Paired n m) : m.pairs.size = n := by
  have turned : (m.edges.filter (!rises ·)).Perm ((m.edges.filter rises).map Prod.swap) := by
    refine (List.perm_ext_iff_of_nodup (m.nodup_edges.filter _)
      ((m.nodup_edges.filter _).map Prod.swap_injective)).mpr ?_
    rintro ⟨a, b⟩
    simp only [rises, List.mem_filter, List.mem_map, Prod.exists, Prod.swap_prod_mk,
      Prod.mk.injEq, mem_edges, Bool.not_eq_true', beq_eq_false_iff_ne, beq_iff_eq]
    constructor
    · rintro ⟨races, falls⟩
      exact ⟨b, a, ⟨P.symm a b races, (P.not_lt_iff races).mp falls⟩, rfl, rfl⟩
    · rintro ⟨_, _, ⟨races, rises⟩, rfl, rfl⟩
      have races := P.symm _ _ races
      exact ⟨races, (P.not_lt_iff races).mpr rises⟩
  have halves := (List.filter_append_perm rises m.edges).length_eq
  rw [List.length_append, turned.length_eq, List.length_map, P.length_edges] at halves
  rw [← Array.length_toList, toList_pairs, List.length_map]
  omega

/-- The relation of a monitor and its counts are right for what it was told. -/
structure Exact (events : List RaceEvent) (answered : Nat) (m : RaceMonitor) : Prop where
  /-- Two sites race exactly if two sends from them race, in either order. -/
  sitesRace_iff : ∀ a b, m.sitesRace a b = true ↔ Raced events a b ∨ Raced events b a
  symmetric : ∀ a b, m.sitesRace a b = m.sitesRace b a
  irreflexive : ∀ a, m.sitesRace a a = false
  /-- Sites that race do so whatever the monitor is told after. -/
  kept : ∀ more a b, m.sitesRace a b = true → (record (events ++ more)).2.sitesRace a b = true
  /-- The pairs listed are those that race, each once and with the smaller site first. -/
  mem_pairs : ∀ a b, ⟨a, b⟩ ∈ m.pairs.toList ↔ compare a b = .lt ∧ m.sitesRace a b = true
  nodup_pairs : m.pairs.toList.Nodup
  count_eq_size : m.count = m.pairs.size
  /-- The answers add up to the number of pairs. -/
  answered_eq_count : answered = m.count

/-- Whatever sends and resets a monitor is told of, its relation and its counts are exact. -/
theorem exact_record (events : List RaceEvent) :
    Exact events (record events).1 (record events).2 := by
  have T := tracks_record events
  have P := paired_record events
  have count : (record events).2.count = (record events).1 := by
    rw [count_eq, P.length_edges, Nat.mul_div_cancel_left _ Nat.two_pos]
  constructor
  case sitesRace_iff => exact T.sitesRace
  case symmetric => exact fun a b => Bool.eq_iff_iff.mpr ⟨P.symm a b, P.symm b a⟩
  case irreflexive => exact fun a => Bool.eq_false_iff.mpr (P.irrefl a)
  case kept =>
    intro more a b races
    rw [T.sitesRace] at races
    rw [(tracks_record (events ++ more)).sitesRace]
    exact races.imp raced_append raced_append
  case mem_pairs => exact fun _ _ => mem_pairs
  case nodup_pairs => exact nodup_pairs _
  case count_eq_size => rw [count, P.size_pairs]
  case answered_eq_count => exact count.symm

end RaceMonitor

end Interleaving
