import Mathlib
import Interleaving.Session.Coverage

/-!
# What coverage counts

A coverage knows pairs of receiver and event by their names alone, so that pairs with one name are one
pair to it (`EventCoverage.recordAll_counts_names`). Names can be shared where a receiver has a colon.

A session keeps the larger count for each name. It makes no difference to what it has in the end in
which order its runs come, nor how often, and the numbers of new pairs that it answers add up to what
it gains (`CoverageCollector.updates_accumulate`).
-/

namespace Interleaving

namespace EventCoverage

variable {c d : EventCoverage} {receiver event k : String} {p q : String × String}

/-- The names of the pairs that were taken. -/
def names (c : EventCoverage) : Finset String := c.hits.keys.toFinset

lemma mem_names : k ∈ c.names ↔ c.hits.contains k = true := by
  rw [names, List.mem_toFinset, SortedMap.mem_keys_iff]

lemma card_names : c.names.card = c.count := by
  rw [names, List.toFinset_card_of_nodup c.hits.nodup_keys]
  exact List.length_map ..

/-- Coverages with the same counts are equal. -/
lemma eq_of_get? (same : ∀ key, c.hits.get? key = d.hits.get? key) : c = d := by
  cases c
  cases d
  exact congrArg mk (SortedMap.ext same)

/-- How often the event of a pair was taken. -/
def hitsAt (c : EventCoverage) (key : String) : UInt32 := (c.hits.get? key).getD 0

/-! ### Names -/

lemma toList_key : (key receiver event).toList = receiver.toList ++ ':' :: event.toList := by
  show (receiver ++ ":" ++ event).toList = _
  rw [String.toList_append, String.toList_append, List.append_assoc]
  rfl

/-- The receiver of the second pair goes on after that of the first, with a colon and a part that the
event of the first pair begins with. -/
def Shifted (p q : String × String) : Prop := ∃ part, q.1 = key p.1 part ∧ p.2 = key part q.2

namespace Shifted

lemma key_eq (h : Shifted p q) : key p.1 p.2 = key q.1 q.2 := by
  obtain ⟨part, receivers, events⟩ := h
  refine String.toList_inj.mp ?_
  rw [toList_key, toList_key, receivers, events, toList_key, toList_key, List.append_assoc]
  rfl

/-- A receiver without a colon does not go on after another one. -/
lemma colon_mem (h : Shifted p q) : ':' ∈ q.1.toList := by
  obtain ⟨part, eq, -⟩ := h
  simp [eq, toList_key]

lemma ne (h : Shifted p q) : p ≠ q := by
  rintro rfl
  obtain ⟨part, eq, -⟩ := h
  have longer := congrArg (List.length ∘ String.toList) eq
  simp [toList_key] at longer

end Shifted

lemma eq_or_shifted {between : List Char} (receivers : q.1.toList = p.1.toList ++ between)
    (events : ':' :: p.2.toList = between ++ ':' :: q.2.toList) : p = q ∨ Shifted p q := by
  cases between with
  | nil =>
    rw [List.append_nil] at receivers
    exact .inl (Prod.ext (String.toList_inj.mp receivers.symm)
      (String.toList_inj.mp (List.cons.inj events).2))
  | cons colon part =>
    obtain ⟨rfl, rest⟩ := List.cons.inj events
    refine .inr ⟨.ofList part, String.toList_inj.mp ?_, String.toList_inj.mp ?_⟩
    · rw [receivers, toList_key, String.toList_ofList]
    · rw [toList_key, String.toList_ofList]
      exact rest

/-- Pairs share a name where more than one colon of it may divide it. -/
lemma key_eq_key_iff : key p.1 p.2 = key q.1 q.2 ↔ p = q ∨ Shifted p q ∨ Shifted q p := by
  constructor
  · intro same
    have same := congrArg String.toList same
    rw [toList_key, toList_key] at same
    obtain ⟨between, receivers, events⟩ | ⟨between, receivers, events⟩ :=
      List.append_eq_append_iff.mp same
    · exact (eq_or_shifted receivers events).imp_right .inl
    · exact (eq_or_shifted receivers events).imp .symm .inr
  · rintro (rfl | h | h)
    · rfl
    · exact h.key_eq
    · exact h.key_eq.symm

lemma card_keys_eq_iff {pairs : List (String × String)} :
    (pairs.map fun p => key p.1 p.2).toFinset.card = pairs.toFinset.card ↔
      ∀ p ∈ pairs, ∀ q ∈ pairs, ¬ Shifted p q := by
  have image : (pairs.map fun p => key p.1 p.2).toFinset =
      pairs.toFinset.image fun p => key p.1 p.2 := by
    ext k
    simp
  rw [image, Finset.card_image_iff]
  constructor
  · intro injective p hp q hq h
    exact h.ne (injective (by simpa using hp) (by simpa using hq) h.key_eq)
  · intro apart p hp q hq same
    have hp : p ∈ pairs := by simpa using hp
    have hq : q ∈ pairs := by simpa using hq
    obtain eq | h | h := key_eq_key_iff.mp same
    · exact eq
    · exact absurd h (apart p hp q hq)
    · exact absurd h (apart q hq p hp)

/-! ### Recording -/

lemma names_record : (c.record receiver event).names = insert (key receiver event) c.names := by
  ext k
  rw [Finset.mem_insert, mem_names, mem_names]
  exact SortedMap.contains_alter

lemma hitsAt_record : (c.record receiver event).hitsAt k =
    if k = key receiver event then countUp (c.hitsAt k) else c.hitsAt k := by
  rw [hitsAt, record, SortedMap.get?_alter]
  split
  · next eq =>
    rw [eq]
    rfl
  · rfl

/-- The count stops at the largest one. -/
lemma toNat_countUp (n : UInt32) : (countUp n).toNat = min (n.toNat + 1) (2 ^ 32 - 1) := by
  have bound := n.toNat_lt
  rw [countUp]
  split
  · next last =>
    rw [last]
    rfl
  · next more =>
    have below : n.toNat ≠ 2 ^ 32 - 1 := fun eq => more (UInt32.toNat_inj.mp eq)
    rw [UInt32.toNat_add]
    show (n.toNat + 1) % 2 ^ 32 = _
    rw [Nat.mod_eq_of_lt (by omega)]
    omega

/-- The coverage after so many more events. -/
def recordAll (c : EventCoverage) (pairs : List (String × String)) : EventCoverage :=
  pairs.foldl (fun c p => c.record p.1 p.2) c

lemma names_recordAll (pairs : List (String × String)) :
    (c.recordAll pairs).names = c.names ∪ (pairs.map fun p => key p.1 p.2).toFinset := by
  induction pairs generalizing c with
  | nil => exact (Finset.union_empty _).symm
  | cons p pairs ih =>
    rw [recordAll, List.foldl_cons, ← recordAll, ih, names_record, List.map_cons,
      List.toFinset_cons, Finset.insert_union, Finset.union_insert]

lemma toNat_hitsAt_recordAll (pairs : List (String × String)) :
    ((c.recordAll pairs).hitsAt k).toNat =
      min ((c.hitsAt k).toNat + pairs.countP fun p => key p.1 p.2 = k) (2 ^ 32 - 1) := by
  induction pairs generalizing c with
  | nil =>
    have bound := (c.hitsAt k).toNat_lt
    show (c.hitsAt k).toNat = min ((c.hitsAt k).toNat + 0) _
    omega
  | cons p pairs ih =>
    rw [recordAll, List.foldl_cons, ← recordAll, ih, hitsAt_record, List.countP_cons]
    by_cases same : k = key p.1 p.2
    · rw [if_pos same, if_pos (decide_eq_true same.symm), toNat_countUp]
      omega
    · rw [if_neg same, if_neg (by simpa using Ne.symm same), Nat.add_zero]

/-- Where no receiver has a colon, a name is that of one pair. -/
lemma countP_key_eq_count {pairs : List (String × String)} (plain : ∀ p ∈ pairs, ':' ∉ p.1.toList)
    (own : ':' ∉ q.1.toList) : (pairs.countP fun p => key p.1 p.2 = key q.1 q.2) = pairs.count q := by
  refine List.countP_congr fun p mem => ?_
  rw [decide_eq_true_iff, beq_iff_eq, key_eq_key_iff]
  constructor
  · rintro (eq | h | h)
    · exact eq
    · exact absurd h.colon_mem own
    · exact absurd h.colon_mem (plain p mem)
  · exact .inl

/-- A coverage counts the names of the pairs that it was given, and how often each was given, up to the
largest count there is. These are the pairs themselves unless one of them is another one with its
colon moved, which asks for a colon in a receiver. -/
theorem recordAll_counts_names (pairs : List (String × String)) :
    let c := empty.recordAll pairs
    c.count = (pairs.map fun p => key p.1 p.2).toFinset.card ∧
    (∀ receiver event, (c.hitsOf receiver event).toNat =
      min (pairs.countP fun p => key p.1 p.2 = key receiver event) (2 ^ 32 - 1)) ∧
    (c.count = pairs.toFinset.card ↔ ∀ p ∈ pairs, ∀ q ∈ pairs, ¬ Shifted p q) ∧
    ((∀ p ∈ pairs, ':' ∉ p.1.toList) → c.count = pairs.toFinset.card ∧
      ∀ receiver event, ':' ∉ receiver.toList →
        (c.hitsOf receiver event).toNat = min (pairs.count (receiver, event)) (2 ^ 32 - 1)) := by
  intro c
  have count : c.count = (pairs.map fun p => key p.1 p.2).toFinset.card := by
    rw [← card_names, names_recordAll]
    rfl
  have hits (receiver event : String) : (c.hitsOf receiver event).toNat =
      min (pairs.countP fun p => key p.1 p.2 = key receiver event) (2 ^ 32 - 1) := by
    have hits := toNat_hitsAt_recordAll (c := empty) (k := key receiver event) pairs
    rwa [show empty.hitsAt (key receiver event) = 0 from rfl, UInt32.toNat_zero, Nat.zero_add] at hits
  have distinct : c.count = pairs.toFinset.card ↔ ∀ p ∈ pairs, ∀ q ∈ pairs, ¬ Shifted p q :=
    count ▸ card_keys_eq_iff
  refine ⟨count, hits, distinct, fun plain => ⟨distinct.mpr fun p _ q hq h => ?_, ?_⟩⟩
  · exact plain q hq h.colon_mem
  · intro receiver event own
    rw [hits, countP_key_eq_count (q := (receiver, event)) plain own]

/-- Two pairs that are counted as one, and each of them as often as both. -/
theorem recordAll_of_shifted_pair :
    let pairs := [("a:b", "c"), ("a", "b:c")]
    let c := empty.recordAll pairs
    c.count = 1 ∧ pairs.toFinset.card = 2 ∧ c.hitsOf "a" "b:c" = 2 ∧ pairs.count ("a", "b:c") = 1 := by
  decide

/-! ### Merging -/

lemma get?_merge :
    (c.merge d).hits.get? k = Option.merge max (c.hits.get? k) (d.hits.get? k) := by
  rw [merge, SortedMap.get?_foldl_alter (f := fun present n => max (present.getD 0) n) d.hits.sorted]
  show (d.hits.get? k).elim _ _ = _
  cases d.hits.get? k with
  | none => cases c.hits.get? k <;> rfl
  | some n =>
    cases c.hits.get? k with
    | none => exact congrArg some (if_pos UInt32.zero_le)
    | some m => rfl

lemma names_merge : (c.merge d).names = c.names ∪ d.names := by
  ext k
  rw [Finset.mem_union, mem_names, mem_names, mem_names, SortedMap.contains, get?_merge,
    Option.isSome_merge, Bool.or_eq_true]
  rfl

lemma hitsAt_merge (c d : EventCoverage) (key : String) :
    (c.merge d).hitsAt key = max (c.hitsAt key) (d.hitsAt key) := by
  have max_zero (n : UInt32) : max n 0 = n := by
    show (if n ≤ 0 then 0 else n) = n
    split
    · next le => exact (UInt32.le_antisymm le UInt32.zero_le).symm
    · rfl
  exact SortedMap.getD_get?_foldl_alter max_zero d.hits.sorted

lemma newPairs_eq_card : c.newPairs d = (c.names \ d.names).card := by
  rw [newPairs, List.countP_eq_length_filter,
    ← List.toFinset_card_of_nodup (c.hits.nodup_keys.filter _), List.toFinset_filter,
    Finset.sdiff_eq_filter]
  congr 1
  refine Finset.filter_congr fun k _ => ?_
  rw [mem_names, Bool.not_eq_true', Bool.not_eq_true]

/-- A merge gains what the other coverage has and this one lacks. -/
lemma count_merge : (c.merge d).count = c.count + d.newPairs c := by
  rw [← card_names, ← card_names, newPairs_eq_card, names_merge, Finset.union_comm,
    ← Finset.card_sdiff_add_card, Nat.add_comm]

end EventCoverage

instance lawfulOrderMax_uint32 : Std.LawfulOrderMax UInt32 where
  max_eq_or a b := by
    show (if a ≤ b then b else a) = a ∨ (if a ≤ b then b else a) = b
    split
    · exact .inr rfl
    · exact .inl rfl
  max_le_iff a b c := by
    show (if a ≤ b then b else a) ≤ c ↔ a ≤ c ∧ b ≤ c
    split
    · next le => exact ⟨fun h => ⟨UInt32.le_trans le h, h⟩, And.right⟩
    · next more =>
      have le : b ≤ a := UInt32.le_of_lt (UInt32.not_le.mp more)
      exact ⟨fun h => ⟨h, UInt32.le_trans le h⟩, And.left⟩

/-- The largest number of a list does not depend on order and repetition. -/
lemma max?_congr {xs ys : List UInt32} (same : ∀ n, n ∈ xs ↔ n ∈ ys) : xs.max? = ys.max? := by
  refine Option.ext fun n => ?_
  simp only [List.max?_eq_some_iff, same]

/-- A call that adds a run to a session: what the session has before it, the run, and the answer. -/
structure CoverageUpdate where
  known : CoverageCollector
  run : EventCoverage
  answer : Nat

namespace CoverageCollector

variable {c : CoverageCollector} {runs : List EventCoverage}

/-- A session after so many more runs. -/
def updateAll (c : CoverageCollector) (runs : List EventCoverage) : CoverageCollector :=
  runs.foldl (fun c run => (c.update run).2) c

/-- The calls that add so many runs in turn. -/
def updates (c : CoverageCollector) : List EventCoverage → List CoverageUpdate
  | [] => []
  | run :: runs => ⟨c, run, (c.update run).1⟩ :: (c.update run).2.updates runs

lemma answer_update (c : CoverageCollector) (run : EventCoverage) :
    (c.update run).1 = run.newPairs c.total := by
  show (c.total.merge run).count - c.total.count = _
  rw [EventCoverage.count_merge, Nat.add_sub_cancel_left]

lemma count_update (c : CoverageCollector) (run : EventCoverage) :
    (c.update run).2.total.count = c.total.count + (c.update run).1 := by
  rw [answer_update]
  exact EventCoverage.count_merge

lemma answer_of_mem_updates : ∀ u ∈ c.updates runs, u.answer = u.run.newPairs u.known.total := by
  induction runs generalizing c with
  | nil => exact nofun
  | cons run runs ih => exact List.forall_mem_cons.mpr ⟨c.answer_update run, ih⟩

lemma count_total_updateAll : (c.updateAll runs).total.count =
    c.total.count + ((c.updates runs).map (·.answer)).sum := by
  induction runs generalizing c with
  | nil => rfl
  | cons run runs ih =>
    show ((c.update run).2.updateAll runs).total.count = _
    rw [ih, count_update, updates, List.map_cons, List.sum_cons, Nat.add_assoc]

lemma get?_total_updateAll {key : String} : (c.updateAll runs).total.hits.get? key =
    ((c.total :: runs).filterMap (·.hits.get? key)).max? := by
  induction runs generalizing c with
  | nil =>
    show c.total.hits.get? key = _
    cases h : c.total.hits.get? key <;> simp [h]
  | cons run runs ih =>
    show ((c.update run).2.updateAll runs).total.hits.get? key = _
    rw [ih]
    show (List.filterMap _ (c.total.merge run :: runs)).max? = _
    simp only [List.filterMap_cons, EventCoverage.get?_merge]
    cases c.total.hits.get? key <;> cases run.hits.get? key <;> rfl

/-- Every call answers the number of pairs that are new to the session, which is what makes a run
interesting, and the answers add up to the pairs that the session gains. Of each pair it has the
largest count that it began with or that a run brought, so that runs in another order or runs that
come more than once leave it with the same coverage. -/
theorem updates_accumulate (c : CoverageCollector) (runs : List EventCoverage) :
    (∀ u ∈ c.updates runs, u.answer = u.run.newPairs u.known.total ∧
      (0 < u.answer ↔ u.known.isInteresting u.run = true)) ∧
    (c.updateAll runs).total.count = c.total.count + ((c.updates runs).map (·.answer)).sum ∧
    (∀ key, (c.updateAll runs).total.hits.get? key =
      ((c.total :: runs).filterMap (·.hits.get? key)).max?) ∧
    ∀ others : List EventCoverage, (∀ run, run ∈ others ↔ run ∈ runs) →
      (c.updateAll others).total = (c.updateAll runs).total := by
  refine ⟨fun u mem => ?_, count_total_updateAll, fun _ => get?_total_updateAll, fun others same => ?_⟩
  · have answer := answer_of_mem_updates u mem
    exact ⟨answer, by rw [answer, isInteresting, decide_eq_true_iff]⟩
  · refine EventCoverage.eq_of_get? fun key => ?_
    rw [get?_total_updateAll, get?_total_updateAll]
    refine max?_congr fun n => ?_
    simp only [List.mem_filterMap, List.mem_cons, same]

end CoverageCollector

end Interleaving
