import Mathlib
import Interleaving.Proofs.Chain.Linked

/-!
# Splicing chains

A reduction moves several operations one after the other. `ChainSet.Route s moves op path` says that
the moves from `op` on are those of the operations of `path`, each once: an operation that is moved
leaves its predecessor at the end of a chain, which is where the next one goes, and the last one is the
beginning of a chain, which its move leaves empty. A move keeps what is left of the route
(`Route.relink`), so all moves of a route succeed (`Linked.moveAlong`), and dropping the empty chain
leaves fewer chains than before (`Linked.splice`).
-/

namespace Interleaving.ChainSet

variable {s : ChainSet} {n : Nat}

/-- Moving an operation behind one that ends a chain and happens before it succeeds. -/
lemma Linked.move (L : Linked n s) {source target : ChainId} {pred op : Nat}
    (mem : op ∈ s.opsOf source) (last : s.tail? target = some pred)
    (bef : s.before pred op = true) :
    s.move pred op = .ok (s.relink source target (s.opsOf source) pred op) := by
  have hpred := (L.chainOf pred target).mpr (List.mem_of_getLast? last)
  have hop := (L.chainOf op source).mpr mem
  have ne := L.ne_of_before last mem bef
  simp only [ChainSet.move, hpred, hop, last, ne, bne_self_eq_false, decide_false, Bool.or_false,
    Bool.false_eq_true, if_false]
  cases e : s.members.get? source with
  | none => simp [opsOf, e] at mem
  | some ops =>
    have : s.opsOf source = ops := by simp [opsOf, e]
    rw [this] at mem ⊢
    simp only [mem, if_true]

/-- The moves from `op` on, each of an operation of the list. -/
inductive Route (s : ChainSet) (moves : Moves) : Nat → List Nat → Prop where
  /-- The last operation begins a chain. -/
  | last {op : Nat} {c : ChainId} :
    moves.get? op = none → s.head? c = some op → Route s moves op [op]
  /-- An operation leaves its predecessor at the end of a chain, for the next one to follow. -/
  | step {op pred next : Nat} {path : List Nat} :
    moves.get? op = some (pred, next) → s.nextInChain.get? pred = some op →
    s.before pred next = true → op ∉ path → Route s moves next path →
    Route s moves op (op :: path)

namespace Route

variable {moves : Moves} {op : Nat} {path : List Nat}

lemma mem (R : Route s moves op path) : op ∈ path := by
  cases R <;> simp

lemma nodup (R : Route s moves op path) : path.Nodup := by
  induction R with
  | last => exact List.nodup_singleton _
  | step _ _ _ fresh _ ih => exact List.nodup_cons.mpr ⟨fresh, ih⟩

lemma placed (R : Route s moves op path) (L : Linked n s) : ∀ x ∈ path, x < n := by
  induction R with
  | @last op c _ head =>
    intro x h
    cases List.mem_singleton.mp h
    exact (L.placed op).mpr ⟨c, List.mem_of_head? head⟩
  | @step op pred next path _ link _ _ _ ih =>
    intro x h
    rcases List.mem_cons.mp h with rfl | h
    · obtain ⟨c, adj⟩ := (L.next pred x).mp link
      exact (L.placed x).mpr ⟨c, adj.mem_right⟩
    · exact ih x h

lemma length_le (R : Route s moves op path) (L : Linked n s) : path.length ≤ n := by
  have sub : path ⊆ List.range n := fun x h => List.mem_range.mpr (R.placed L x h)
  simpa using (R.nodup.subperm sub).length_le

/-- A move of an operation that is not on a route leaves the route as it is. -/
lemma relink (R : Route s moves op path) (L : Linked n s) {source target : ChainId}
    {pred₀ op₀ : Nat} {front back : List Nat} (split : s.opsOf source = front ++ op₀ :: back)
    (last : s.tail? target = some pred₀) (bef : s.before pred₀ op₀ = true) (fresh : op₀ ∉ path) :
    Route (s.relink source target (s.opsOf source) pred₀ op₀) moves op path := by
  have mem : op₀ ∈ s.opsOf source := by simp [split]
  have ne : target ≠ source := L.ne_of_before last mem bef
  have fresh_op : op₀ ∉ front := L.not_mem_front split
  induction R with
  | @last op c none head =>
    have ne_op : op ≠ op₀ := fun e => fresh (by simp [e])
    have head_source : s.head? source = some op → front.head? = some op := by
      rw [head?, split]
      cases front with
      | nil => simpa using fun e => absurd e.symm ne_op
      | cons x front => exact id
    have head_target : s.head? target = some op →
        (s.opsOf target ++ op₀ :: back).head? = some op := by
      intro h
      rw [List.head?_append, show (s.opsOf target).head? = some op from h, Option.some_or]
    refine .last (c := c) none ?_
    rw [head?, split, opsOf_relink ne fresh_op]
    grind [head?]
  | @step op pred next path get link bef' notin R ih =>
    have ne_op : op ≠ op₀ := fun e => fresh (by simp [e])
    refine .step get ?_ bef' notin (ih fun h => fresh (List.mem_cons_of_mem _ h))
    rw [split, next_relink source target fresh_op, if_neg, if_neg, link]
    · -- The end of what is left was linked to the operation that is moved.
      intro tail
      have adj : Adjacent (s.opsOf source) pred op₀ := by
        rw [split, adjacent_append]
        exact .inr (.inl ⟨tail, List.head?_cons⟩)
      have := (L.next pred op₀).mpr ⟨source, adj⟩
      rw [link] at this
      exact ne_op (Option.some.inj this)
    · rintro rfl
      rw [L.next_tail last] at link
      cases link

end Route

/-- An operation has no other predecessor than the last of what stands before it. -/
lemma Linked.getLast?_front (L : Linked n s) {source : ChainId} {pred op : Nat}
    {front back : List Nat} (split : s.opsOf source = front ++ op :: back)
    (link : s.nextInChain.get? pred = some op) : front.getLast? = some pred := by
  have nodup : (front ++ op :: back).Nodup := split ▸ L.nodup source
  obtain ⟨c, adj⟩ := (L.next pred op).mp link
  cases L.unique adj.mem_right (by simp [split] : op ∈ s.opsOf source)
  rw [split, adjacent_append, adjacent_cons] at adj
  have right : ∀ l, Adjacent l pred op → op ∈ l := fun _ h => h.mem_right
  have head : back.head? = some op → op ∈ back := List.mem_of_head?
  grind

/-- The moves of a route succeed, and leave a chain empty. -/
lemma Linked.moveAlong {moves : Moves} {path : List Nat} {pred op fuel : Nat} {target : ChainId}
    (L : Linked n s) (R : Route s moves op path) (last : s.tail? target = some pred)
    (bef : s.before pred op = true) (le : path.length ≤ fuel) :
    ∃ s', ChainSet.moveAlong moves fuel pred op s = (s', none) ∧ Linked n s' ∧
      s'.ops = s.ops ∧ s'.order = s.order ∧ ∃ c ∈ s'.order, s'.opsOf c = [] := by
  -- Every move is made in the chains that the moves before it have left.
  induction path generalizing s pred op fuel target with
  | nil => cases R
  | cons x path ih =>
    obtain ⟨fuel, rfl⟩ : ∃ m, fuel = m + 1 := ⟨fuel - 1, by simp at le; omega⟩
    obtain rfl : op = x := by cases R <;> rfl
    have lt := R.placed L op R.mem
    obtain ⟨source, mem⟩ := (L.placed op).mp lt
    obtain ⟨front, back, split⟩ := List.append_of_mem mem
    have ne := L.ne_of_before last mem bef
    have L' := L.relink split last bef
    have left : (s.relink source target (s.opsOf source) pred op).opsOf source = front := by
      rw [split, opsOf_relink ne (L.not_mem_front split), if_neg ne.symm, if_pos rfl]
    simp only [ChainSet.moveAlong, L.move mem last bef]
    cases R with
    | @last _ c get head =>
      -- The operation began its chain, so nothing is left there.
      refine ⟨_, by rw [get], L', rfl, rfl, source, L.mem_order_of_mem mem, ?_⟩
      cases L.unique (List.mem_of_head? head) mem
      rw [head?, split] at head
      rw [left]
      cases front with
      | nil => rfl
      | cons y front =>
        cases Option.some.inj head
        exact absurd List.mem_cons_self (L.not_mem_front split)
    | @step _ pred' next _ get link bef' fresh R =>
      simp only [get]
      have R' := R.relink L split last bef fresh
      -- The predecessor that the operation has left is where the next one goes.
      have last' : (s.relink source target (s.opsOf source) pred op).tail? source = some pred' := by
        rw [tail?, left]
        exact L.getLast?_front split link
      exact ih L' R' last' bef' (by simpa using le)

lemma opsOf_dropEmpty (s : ChainSet) (c : ChainId) : s.dropEmpty.opsOf c = s.opsOf c := by
  simp only [opsOf, dropEmpty, SortedMap.get?_filter]
  cases s.members.get? c with
  | none => rfl
  | some ops => cases ops <;> rfl

lemma Linked.mem_order_dropEmpty (L : Linked n s) {c : ChainId} :
    c ∈ s.dropEmpty.order ↔ c ∈ s.order ∧ s.opsOf c ≠ [] := by
  show c ∈ s.order.filter _ ↔ _
  rw [List.mem_filter, L.mem_order, SortedMap.contains, opsOf]
  cases s.members.get? c with
  | none => simp
  | some ops => cases ops <;> simp

lemma Linked.dropEmpty (L : Linked n s) : Linked n s.dropEmpty := by
  constructor
  case order_nodup => exact L.order_nodup.filter _
  case lt_nextChainId =>
    intro c h
    exact L.lt_nextChainId c (L.mem_order_dropEmpty.mp h).1
  case mem_order =>
    intro c
    rw [L.mem_order_dropEmpty, L.mem_order]
    simp only [SortedMap.contains, ChainSet.dropEmpty, SortedMap.get?_filter, opsOf]
    cases s.members.get? c with
    | none => simp
    | some ops => cases ops <;> simp
  case placed =>
    intro op
    simp only [opsOf_dropEmpty]
    exact L.placed op
  case chainOf =>
    intro op c
    rw [opsOf_dropEmpty]
    exact L.chainOf op c
  case next =>
    intro a b
    simp only [opsOf_dropEmpty]
    exact L.next a b
  case ordered =>
    intro c
    rw [opsOf_dropEmpty]
    exact L.ordered c

/-- Carrying out a reduction along a route succeeds and leaves fewer chains, none of them empty. -/
lemma Linked.splice (L : Linked n s) (le : n ≤ s.ops.size) {r : Reduction} {path : List Nat}
    {target : ChainId} (R : Route s r.moves r.op path) (last : s.tail? target = some r.pred)
    (bef : s.before r.pred r.op = true) :
    ∃ s', s.splice r = (s', none) ∧ Linked n s' ∧ s'.ops = s.ops ∧
      s'.order.length < s.order.length ∧ ∀ c ∈ s'.order, s'.opsOf c ≠ [] := by
  have fuel : path.length ≤ s.ops.size + 1 := (R.length_le L).trans (by omega)
  obtain ⟨s', run, L', ops, order, c, mem, empty⟩ := L.moveAlong R last bef fuel
  refine ⟨s'.dropEmpty, by rw [ChainSet.splice, run], L'.dropEmpty, ops, ?_, fun d h => ?_⟩
  · have sub : s'.dropEmpty.order.Sublist s'.order := List.filter_sublist
    rw [← order]
    refine lt_of_le_of_ne sub.length_le fun e => ?_
    have : c ∈ s'.dropEmpty.order := (sub.eq_of_length e).symm ▸ mem
    exact (L'.mem_order_dropEmpty.mp this).2 empty
  · rw [opsOf_dropEmpty]
    exact (L'.mem_order_dropEmpty.mp h).2

end Interleaving.ChainSet
