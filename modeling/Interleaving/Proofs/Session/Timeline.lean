import Mathlib
import Interleaving.Proofs.Session.Summary
import Interleaving.Session.Timeline

/-!
# Fingerprints of timelines

A window holds the last runs of what its actor has taken, and the fingerprints that have been seen are
those of the windows after each beginning of the actors' collapsed lists of kinds
(`Timeline.Reflects`). So the order of the steps of different actors and the number of repetitions leave
no trace in the fingerprint of a timeline (`Timeline.hash?_eq_of_collapsed`).
-/

namespace Interleaving

namespace Timeline

/-- A list without immediate repetitions. -/
def collapse (kinds : List String) : List String := kinds.destutter (· ≠ ·)

section Collapsing

variable {kinds : List String} {kind : String}

lemma getLast?_destutter' (k : String) (kinds : List String) :
    (kinds.destutter' (· ≠ ·) k).getLast? = (k :: kinds).getLast? := by
  induction kinds generalizing k with
  | nil => rfl
  | cons k' kinds ih =>
    by_cases other : k ≠ k'
    · obtain ⟨c, cs, e⟩ := List.exists_cons_of_ne_nil
        (List.destutter'_ne_nil (R := (· ≠ ·)) kinds (a := k'))
      rw [List.destutter'_cons_pos _ other, e, List.getLast?_cons_cons, ← e, ih,
        List.getLast?_cons_cons]
    · obtain rfl := not_not.mp other
      rw [List.destutter'_cons_neg _ other, ih, List.getLast?_cons_cons]

lemma getLast?_collapse : (collapse kinds).getLast? = kinds.getLast? := by
  cases kinds with
  | nil => rfl
  | cons k kinds => exact getLast?_destutter' k kinds

lemma destutter'_concat (k : String) (kinds : List String) :
    (kinds ++ [kind]).destutter' (· ≠ ·) k =
      if (k :: kinds).getLast? = some kind then kinds.destutter' (· ≠ ·) k
      else kinds.destutter' (· ≠ ·) k ++ [kind] := by
  induction kinds generalizing k with
  | nil =>
    simp only [List.nil_append, List.destutter'_singleton, List.getLast?_singleton,
      Option.some.injEq, ite_not]
    rfl
  | cons k' kinds ih =>
    rw [List.cons_append, List.getLast?_cons_cons]
    by_cases other : k ≠ k'
    · rw [List.destutter'_cons_pos _ other, List.destutter'_cons_pos _ other, ih]
      split_ifs
      · rfl
      · rfl
    · obtain rfl := not_not.mp other
      rw [List.destutter'_cons_neg _ other, List.destutter'_cons_neg _ other, ih]

/-- A repetition is dropped, and another kind is added at the end. -/
lemma collapse_concat : collapse (kinds ++ [kind]) =
    if kinds.getLast? = some kind then collapse kinds else collapse kinds ++ [kind] := by
  cases kinds with
  | nil => rfl
  | cons k kinds => exact destutter'_concat k kinds

end Collapsing

section Windows

variable {window : List KindRun} {kind : String} {kinds : List String}

/-- The kinds that are left in a window. -/
def latest (kinds : List String) : List String := kinds.rtake windowSize

lemma latest_latest : latest (latest kinds) = latest kinds := by
  simp only [latest, List.rtake, List.drop_drop, List.length_drop]
  congr 1
  omega

lemma getLast?_latest : (latest kinds).getLast? = kinds.getLast? := by
  rw [latest, List.rtake, List.getLast?_drop]
  split_ifs with short
  · have none : kinds.length = 0 := by
      rw [windowSize] at short
      omega
    rw [List.length_eq_zero_iff.mp none]
    rfl
  · rfl

/-- A kind that is dropped from a window is never missed. -/
lemma latest_latest_concat : latest (latest kinds ++ [kind]) = latest (kinds ++ [kind]) := by
  have shorter : (kinds.rtake 15).rtake 14 = kinds.rtake 14 := by
    simp only [List.rtake, List.drop_drop, List.length_drop]
    congr 1
    omega
  simp only [latest, windowSize, List.rtake_concat_succ, shorter]

/-- Counting an event does not change the kinds of a window. -/
lemma map_kind_modify (window : List KindRun) (i : Nat) (f : UInt32 → UInt32) :
    (window.modify i fun run => { run with times := f run.times }).map (·.kind) =
      window.map (·.kind) := by
  apply List.ext_getElem?
  intro j
  rw [List.getElem?_map, List.getElem?_map, List.getElem?_modify]
  cases window[j]? with
  | none => rfl
  | some run =>
    simp only [Option.map_eq_map, Option.map_some]
    split_ifs
    · rfl
    · rfl

lemma map_kind_extend (h : window.map (·.kind) = latest (collapse kinds)) :
    (extend window kind).map (·.kind) = latest (collapse (kinds ++ [kind])) := by
  have last : window.getLast?.map (·.kind) = kinds.getLast? := by
    rw [← List.getLast?_map, h, getLast?_latest, getLast?_collapse]
  have cut (w : List KindRun) : (w.drop (w.length - windowSize)).map (·.kind) =
      latest (w.map (·.kind)) := by
    rw [List.map_drop, latest, List.rtake, List.length_map]
  rw [extend, cut, map_kind_modify, last, collapse_concat]
  simp only [beq_iff_eq]
  split_ifs
  · rw [h, latest_latest]
  · rw [List.map_append, h]
    exact latest_latest_concat

end Windows

section Runs

/-- The kinds of the events that an actor takes, in their order. -/
def kindsOf (actor : String) (run : List (String × String)) : List String :=
  (run.filter (·.1 = actor)).map (·.2)

/-- The timeline of a run, given as the actors that take events and the kinds of these. -/
def ofRun (run : List (String × String)) : Timeline :=
  run.foldl (fun t d => t.record d.1 d.2) empty

variable {t : Timeline} {run : List (String × String)} {actor kind : String}

lemma kindsOf_concat : kindsOf actor (run ++ [(actor, kind)]) = kindsOf actor run ++ [kind] := by
  rw [kindsOf, List.filter_append, List.map_append, List.filter_singleton]
  simp only [decide_true, cond_true]
  rfl

lemma kindsOf_concat_of_ne {other : String} (h : actor ≠ other) :
    kindsOf other (run ++ [(actor, kind)]) = kindsOf other run := by
  rw [kindsOf, List.filter_append, List.filter_singleton, decide_eq_false h]
  exact congrArg _ (List.append_nil _)

/-- The fingerprint of an actor's window of these kinds. -/
def hashOf (actor : String) (kinds : List String) : UInt64 :=
  Sip.hash ((actor :: kinds).flatMap Sip.textBytes)

/-- What a timeline knows of a run. -/
structure Reflects (t : Timeline) (run : List (String × String)) : Prop where
  windows : ∀ actor, ((t.windows.get? actor).getD []).map (·.kind) =
    latest (collapse (kindsOf actor run))
  seen : ∀ x, x ∈ t.seen ↔ ∃ actor, OfSomePrefix (collapse (kindsOf actor run)) fun kinds =>
    x = hashOf actor (latest kinds)

lemma reflects_empty : empty.Reflects [] where
  windows _ := rfl
  seen x := by
    refine iff_of_false SortedSet.not_mem_empty ?_
    rintro ⟨_, h⟩
    exact not_ofSomePrefix_nil h

/-- With an event of its actor the collapsed list comes to its next beginning, which may be an old one;
the lists of the other actors stay as they are. -/
lemma ofSomePrefix_collapse_concat {other : String} {P : List String → Prop} :
    OfSomePrefix (collapse (kindsOf other (run ++ [(actor, kind)]))) P ↔
      OfSomePrefix (collapse (kindsOf other run)) P ∨
        other = actor ∧ P (collapse (kindsOf other (run ++ [(actor, kind)]))) := by
  by_cases same : actor = other
  case neg =>
    rw [kindsOf_concat_of_ne same]
    exact (or_iff_left fun h => same h.1.symm).symm
  cases same
  rw [kindsOf_concat, collapse_concat]
  split_ifs with repeated
  · refine ⟨.inl, fun h => h.elim id fun ⟨_, h⟩ => ⟨_, ?_, List.prefix_refl _, h⟩⟩
    rintro e
    rw [← getLast?_collapse, e] at repeated
    cases repeated
  · rw [ofSomePrefix_concat, and_iff_right rfl]

lemma Reflects.record (h : t.Reflects run) :
    (t.record actor kind).Reflects (run ++ [(actor, kind)]) := by
  have window : (extend ((t.windows.get? actor).getD []) kind).map (·.kind) =
      latest (collapse (kindsOf actor (run ++ [(actor, kind)]))) := by
    rw [kindsOf_concat]
    exact map_kind_extend (h.windows actor)
  constructor
  case windows =>
    intro other
    rw [Timeline.record, SortedMap.get?_insert]
    by_cases same : actor = other
    · cases same
      rw [if_pos rfl]
      exact window
    · rw [if_neg (Ne.symm same), kindsOf_concat_of_ne same]
      exact h.windows other
  case seen =>
    intro x
    rw [Timeline.record, SortedSet.mem_insert, h.seen, fingerprint, window]
    simp only [ofSomePrefix_collapse_concat, exists_or, exists_eq_left]
    exact or_comm

lemma reflects_ofRun (run : List (String × String)) : (ofRun run).Reflects run := by
  induction run using List.reverseRecOn with
  | nil => exact reflects_empty
  | append_singleton run d ih =>
    rw [ofRun, List.foldl_append]
    exact ih.record

/-- What is hashed is the set of the fingerprints that have been seen. -/
lemma hash?_congr {t u : Timeline} (h : ∀ x, x ∈ t.seen ↔ x ∈ u.seen) : t.hash? = u.hash? := by
  rw [hash?, hash?, SortedSet.ext h]

end Runs

/-- Two runs in which each actor takes events of the same kinds in the same order, but for immediate
repetitions among its own, have the same fingerprint, however the steps of the actors are interleaved,
however often a kind is repeated and however many runs have left the windows. -/
theorem hash?_eq_of_collapsed (run run' : List (String × String))
    (same : ∀ actor, collapse (kindsOf actor run) = collapse (kindsOf actor run')) :
    (ofRun run).hash? = (ofRun run').hash? := by
  apply hash?_congr
  intro x
  calc x ∈ (ofRun run).seen
    _ ↔ ∃ actor, OfSomePrefix (collapse (kindsOf actor run)) fun kinds =>
          x = hashOf actor (latest kinds) := (reflects_ofRun run).seen x
    _ ↔ ∃ actor, OfSomePrefix (collapse (kindsOf actor run')) fun kinds =>
          x = hashOf actor (latest kinds) := by simp only [same]
    _ ↔ x ∈ (ofRun run').seen := ((reflects_ofRun run').seen x).symm

theorem hash?_of_two_interleavings :
    (∀ actor, collapse (kindsOf actor
        [("a", "read"), ("a", "read"), ("b", "stop"), ("a", "write"), ("a", "read")]) =
      collapse (kindsOf actor
        [("b", "stop"), ("b", "stop"), ("a", "read"), ("a", "write"), ("b", "stop"),
          ("a", "write"), ("a", "read")])) ∧
    (ofRun [("a", "read"), ("a", "read"), ("b", "stop"), ("a", "write"), ("a", "read")]).hash? =
      (ofRun [("b", "stop"), ("b", "stop"), ("a", "read"), ("a", "write"), ("b", "stop"),
        ("a", "write"), ("a", "read")]).hash? := by
  have same (actor : String) : collapse (kindsOf actor
        [("a", "read"), ("a", "read"), ("b", "stop"), ("a", "write"), ("a", "read")]) =
      collapse (kindsOf actor
        [("b", "stop"), ("b", "stop"), ("a", "read"), ("a", "write"), ("b", "stop"),
          ("a", "write"), ("a", "read")]) := by
    by_cases a : "a" = actor
    · cases a
      decide
    · by_cases b : "b" = actor
      · cases b
        decide
      · simp only [kindsOf, List.filter_cons, a, b, decide_false]
        rfl
  exact ⟨same, hash?_eq_of_collapsed _ _ same⟩

end Timeline

end Interleaving
