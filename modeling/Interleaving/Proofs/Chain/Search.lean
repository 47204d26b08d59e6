import Mathlib
import Interleaving.Proofs.Chain.Splice

/-!
# Searching for a reduction

Whatever the search has queued or noted a move for has a route back to the beginning of a chain
(`ChainSet.Explored`): a head has one at once, and an operation behind a cut link is moved before the
operation that the link was cut for. So what the search finds is a reduction along a route, and where it
finds nothing, no queued operation can follow the end of another chain (`Linked.search`).
-/

namespace Interleaving.ChainSet

variable {s : ChainSet} {n : Nat} {moves : Moves}

/-- The predecessors noted with the operations are those offered earlier that happen before them. -/
def Recorded (s : ChainSet) : Prop :=
  ∀ op pred, pred ∈ s.predsOf op ↔ pred < op ∧ s.before pred op = true

lemma Recorded.of_ops_eq {s' : ChainSet} (known : s.Recorded) (ops : s'.ops = s.ops) :
    s'.Recorded := by
  intro op pred
  have := known op pred
  simpa only [predsOf, before, ops] using this

/-- The end of no chain happens before the beginning of another. -/
def Reduced (s : ChainSet) : Prop :=
  ∀ c ∈ s.order, ∀ d ∈ s.order, c ≠ d →
    ∀ tail head, s.tail? c = some tail → s.head? d = some head → ¬ s.before tail head = true

lemma joinable?_eq_some {c : ChainId} {op pred : Nat} (h : s.joinable? c op = some pred) :
    ∃ target ∈ s.order, s.tail? target = some pred ∧ s.before pred op = true := by
  obtain ⟨target, mem, h⟩ := List.exists_of_findSome?_eq_some h
  split at h
  · cases h
  · rw [Option.filter_eq_some_iff] at h
    exact ⟨target, mem, h⟩

lemma not_before_of_joinable? {c d : ChainId} {op tail : Nat} (h : s.joinable? c op = none)
    (mem : d ∈ s.order) (ne : d ≠ c) (last : s.tail? d = some tail) :
    ¬ s.before tail op = true := by
  intro bef
  have := List.findSome?_eq_none_iff.mp h d mem
  rw [if_neg ne, last, Option.filter_some, if_pos bef] at this
  cases this

lemma Linked.head?_ne_of_next (L : Linked n s) {a b : Nat} (link : s.nextInChain.get? a = some b)
    (c : ChainId) : s.head? c ≠ some b := by
  intro head
  obtain ⟨d, adj⟩ := (L.next a b).mp link
  cases L.unique (List.mem_of_head? head) adj.mem_right
  obtain ⟨front, back, e⟩ := adj
  have nodup := L.nodup c
  rw [head?, e] at head
  rw [e] at nodup
  cases front with
  | nil =>
    cases Option.some.inj head
    simp at nodup
  | cons x front =>
    cases Option.some.inj head
    simp at nodup

lemma Route.not_mem {op x : Nat} {path : List Nat} (R : Route s moves op path)
    (get : moves.get? x = none) (head : ∀ c, s.head? c ≠ some x) : x ∉ path := by
  induction R with
  | @last op c _ first =>
    intro h
    cases List.mem_singleton.mp h
    exact head c first
  | @step op _ _ path get' _ _ _ _ ih =>
    intro h
    rcases List.mem_cons.mp h with rfl | h
    · rw [get] at get'
      cases get'
    · exact ih h

/-- A new move leaves the routes as they are. -/
lemma Route.insert {op x : Nat} {move : Nat × Nat} {path : List Nat} (R : Route s moves op path)
    (get : moves.get? x = none) (head : ∀ c, s.head? c ≠ some x) :
    Route s (moves.insert x move) op path := by
  induction R with
  | @last op c none first =>
    refine .last ?_ first
    rw [SortedMap.get?_insert, if_neg, none]
    rintro rfl
    exact head c first
  | @step op pred next path get' link bef fresh _ ih =>
    have ne : op ≠ x := by
      rintro rfl
      rw [get] at get'
      cases get'
    have get'' : (moves.insert x move).get? op = some (pred, next) := by
      rw [SortedMap.get?_insert, if_neg ne, get']
    exact .step get'' link bef fresh ih

/-- All operations that have a move, or are in a list, have a route. -/
structure Explored (s : ChainSet) (moves : Moves) (ops : List Nat) : Prop where
  moved : ∀ op, moves.contains op = true → ∃ path, Route s moves op path
  queued : ∀ op ∈ ops, ∃ path, Route s moves op path

/-- Cutting a link keeps that all have a route: what is behind it is moved before the operation that
can follow its beginning. -/
lemma Explored.cut (L : Linked n s) {c : ChainId} {op pred : Nat} {ops : List Nat}
    {found : Moves × List Nat} (E : Explored s found.1 (ops ++ found.2)) (mem : op ∈ ops)
    (bef : s.before pred op = true) :
    Explored s (s.cut c op found pred).1 (ops ++ (s.cut c op found pred).2) := by
  rw [ChainSet.cut]
  split
  · exact E
  · split
    · next next link =>
      split
      · exact E
      · next new =>
        have get : found.1.get? next = none := by
          simpa [SortedMap.contains] using new
        have head := L.head?_ne_of_next link
        -- What is behind the cut link is moved first, and then the route goes on from `op`.
        have step : ∃ path, Route s (found.1.insert next (pred, op)) next path := by
          obtain ⟨path, R⟩ := E.queued op (List.mem_append_left _ mem)
          refine ⟨next :: path, .step ?_ link bef (R.not_mem get head) (R.insert get head)⟩
          rw [SortedMap.get?_insert, if_pos rfl]
        refine ⟨fun x h => ?_, fun x h => ?_⟩
        · by_cases e : x = next
          · exact e ▸ step
          · rw [SortedMap.contains, SortedMap.get?_insert, if_neg e] at h
            obtain ⟨path, R⟩ := E.moved x h
            exact ⟨path, R.insert get head⟩
        · rw [← List.append_assoc, List.mem_append, List.mem_singleton] at h
          rcases h with h | rfl
          · obtain ⟨path, R⟩ := E.queued x h
            exact ⟨path, R.insert get head⟩
          · exact step
    · exact E

lemma Explored.cuts (L : Linked n s) {c : ChainId} {op : Nat} {ops preds : List Nat}
    {found : Moves × List Nat} (E : Explored s found.1 (ops ++ found.2)) (mem : op ∈ ops)
    (bef : ∀ pred ∈ preds, s.before pred op = true) :
    Explored s (preds.foldl (s.cut c op) found).1
      (ops ++ (preds.foldl (s.cut c op) found).2) := by
  induction preds generalizing found with
  | nil => exact E
  | cons pred preds ih =>
    exact ih (E.cut L mem (bef pred (by simp))) fun p h => bef p (by simp [h])

/-- The search comes to an end without a fault. It finds a reduction along a route, or no operation of
the queue can follow the end of another chain. -/
lemma Linked.search (L : Linked n s) (known : s.Recorded) {queue : List Nat}
    (E : Explored s moves queue) :
    (s.search moves queue = .ok none ∧
      ∀ op ∈ queue, ∀ c, op ∈ s.opsOf c → s.joinable? c op = none) ∨
    ∃ r path, s.search moves queue = .ok (some r) ∧ Route s r.moves r.op path ∧
      ∃ target ∈ s.order, s.tail? target = some r.pred ∧ s.before r.pred r.op = true := by
  fun_induction ChainSet.search s moves queue with
  | case1 => exact .inl ⟨rfl, by simp⟩
  | case2 moves op queue none =>
    obtain ⟨path, R⟩ := E.queued op (by simp)
    obtain ⟨c, mem⟩ := (L.placed op).mp (R.placed L op R.mem)
    rw [(L.chainOf op c).mpr mem] at none
    cases none
  | case3 moves op queue c _ pred join =>
    obtain ⟨path, R⟩ := E.queued op (by simp)
    exact .inr ⟨_, path, rfl, R, joinable?_eq_some join⟩
  | case4 moves op queue c chain join found ih =>
    have start : Explored s (moves, ([] : List Nat)).1 ((op :: queue) ++ (moves, []).2) := by
      simpa using E
    have E' : Explored s found.1 ((op :: queue) ++ found.2) :=
      start.cuts L (by simp) fun pred h => ((known op pred).mp h).2
    rcases ih ⟨E'.moved, fun x h => E'.queued x (List.mem_cons_of_mem _ h)⟩ with ⟨e, free⟩ | found
    · refine .inl ⟨e, fun x h d mem => ?_⟩
      rcases List.mem_cons.mp h with rfl | h
      · rw [← L.chainOf, chain] at mem
        exact Option.some.inj mem ▸ join
      · exact free x (List.mem_append_left _ h) d mem
    · exact .inr found

lemma Linked.findReduction (L : Linked n s) (known : s.Recorded) :
    (s.findReduction = .ok none ∧ s.Reduced) ∨
    ∃ r path, s.findReduction = .ok (some r) ∧ Route s r.moves r.op path ∧
      ∃ target ∈ s.order, s.tail? target = some r.pred ∧ s.before r.pred r.op = true := by
  have E : Explored s .empty (s.order.filterMap s.head?) := by
    refine ⟨fun op h => ?_, fun op h => ?_⟩
    · cases h
    · obtain ⟨c, _, first⟩ := List.mem_filterMap.mp h
      exact ⟨[op], .last rfl first⟩
  rcases L.search known E with ⟨e, free⟩ | found
  · refine .inl ⟨e, fun c hc d hd ne tail head last first => ?_⟩
    have join := free head (List.mem_filterMap.mpr ⟨d, hd, first⟩) d (List.mem_of_head? first)
    exact not_before_of_joinable? join hc ne last
  · exact .inr found

/-- Where no more reductions are allowed than there are chains, all are carried out. -/
lemma Linked.reduceAtMost (L : Linked n s) (known : s.Recorded) (le : n ≤ s.ops.size)
    (live : ∀ c ∈ s.order, s.opsOf c ≠ []) {allowed : Nat} (enough : s.order.length ≤ allowed) :
    ∃ s', s.reduceAtMost allowed = (s', none) ∧ Linked n s' ∧ s'.ops = s.ops ∧
      (∀ c ∈ s'.order, s'.opsOf c ≠ []) ∧ s'.Reduced := by
  -- Each reduction leaves fewer chains, so as many reductions as there are chains are enough.
  induction allowed generalizing s with
  | zero =>
    rcases L.findReduction known with ⟨e, reduced⟩ | ⟨_, _, _, _, target, mem, _⟩
    · exact ⟨s, by rw [ChainSet.reduceAtMost, e], L, rfl, live, reduced⟩
    · have := List.length_pos_of_mem mem
      omega
  | succ allowed ih =>
    rcases L.findReduction known with ⟨e, reduced⟩ | ⟨r, path, e, R, target, _, last, bef⟩
    · exact ⟨s, by rw [ChainSet.reduceAtMost, e], L, rfl, live, reduced⟩
    · obtain ⟨s', run, L', ops, fewer, live'⟩ := L.splice le R last bef
      obtain ⟨t, e', Lt, ops', rest⟩ :=
        ih L' (known.of_ops_eq ops) (ops ▸ le) live' (by omega)
      refine ⟨t, ?_, Lt, ops'.trans ops, rest⟩
      rw [ChainSet.reduceAtMost, e]
      simp only [run, e']

/-- Joining chains succeeds, and no more can be joined after it. -/
lemma Linked.reduce (L : Linked n s) (known : s.Recorded) (le : n ≤ s.ops.size)
    (live : ∀ c ∈ s.order, s.opsOf c ≠ []) :
    ∃ s', s.reduce = (s', none) ∧ Linked n s' ∧ s'.ops = s.ops ∧
      (∀ c ∈ s'.order, s'.opsOf c ≠ []) ∧ s'.Reduced := by
  refine L.reduceAtMost known le live ?_
  have sub : s.order ⊆ s.members.toList.map (·.1) := by
    intro c h
    rw [L.mem_order, SortedMap.contains, Option.isSome_iff_exists] at h
    obtain ⟨ops, get⟩ := h
    exact List.mem_map.mpr ⟨(c, ops), SortedMap.mem_toList_iff.mpr get, rfl⟩
  simpa [SortedMap.size] using (L.order_nodup.subperm sub).length_le

end Interleaving.ChainSet
