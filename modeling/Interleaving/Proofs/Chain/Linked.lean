import Mathlib
import Interleaving.Proofs.Clock
import Interleaving.Schedule.Chain

/-!
# Chains and their indexes

`ChainSet.Linked n s` says that the first `n` operations of `s` are divided into chains, each ordered
by "happens before", and that the indexes agree with the chains: the order of the chains lists those
that exist, the chain of each operation is the one that holds it, and the links are exactly the pairs
of neighbours. Every change of a chain keeps it: an operation joins a chain (`Linked.append`) or begins
one (`Linked.beginChain`), and the rest of a chain is moved to the end of another (`Linked.relink`).
Empty chains are allowed, since moving an operation from the beginning of its chain leaves one.
-/

namespace Interleaving.ChainSet

/-- In a list `b` directly follows `a`. -/
def Adjacent (l : List Nat) (a b : Nat) : Prop := ∃ front back, l = front ++ a :: b :: back

lemma not_adjacent_nil {a b : Nat} : ¬ Adjacent [] a b := by
  rintro ⟨front, back, e⟩
  simp at e

lemma adjacent_cons {x a b : Nat} {l : List Nat} :
    Adjacent (x :: l) a b ↔ (x = a ∧ l.head? = some b) ∨ Adjacent l a b := by
  constructor
  · rintro ⟨front, back, e⟩
    cases front with
    | nil =>
      obtain ⟨rfl, rfl⟩ := List.cons.inj e
      exact .inl ⟨rfl, rfl⟩
    | cons y front =>
      obtain ⟨rfl, rfl⟩ := List.cons.inj e
      exact .inr ⟨front, back, rfl⟩
  · rintro (⟨rfl, h⟩ | ⟨front, back, rfl⟩)
    · obtain ⟨back, rfl⟩ := List.head?_eq_some_iff.mp h
      exact ⟨[], back, rfl⟩
    · exact ⟨x :: front, back, rfl⟩

/-- Where two lists are joined, the last of the first and the first of the second are neighbours. -/
lemma adjacent_append {a b : Nat} {l m : List Nat} :
    Adjacent (l ++ m) a b ↔
      Adjacent l a b ∨ (l.getLast? = some a ∧ m.head? = some b) ∨ Adjacent m a b := by
  induction l with
  | nil => simp [not_adjacent_nil]
  | cons x l ih =>
    rw [List.cons_append, adjacent_cons, adjacent_cons, ih]
    cases l with
    | nil => simp [not_adjacent_nil]
    | cons y l => simp [or_assoc]

lemma Adjacent.mem_left {a b : Nat} {l : List Nat} (h : Adjacent l a b) : a ∈ l := by
  obtain ⟨front, back, rfl⟩ := h
  simp

lemma Adjacent.mem_right {a b : Nat} {l : List Nat} (h : Adjacent l a b) : b ∈ l := by
  obtain ⟨front, back, rfl⟩ := h
  simp

/-- Nothing follows the last of a list without repetitions. -/
lemma not_adjacent_getLast? {a b : Nat} {l : List Nat} (nd : l.Nodup) (last : l.getLast? = some a) :
    ¬ Adjacent l a b := by
  induction l with
  | nil => exact not_adjacent_nil
  | cons x l ih =>
    cases l with
    | nil => simp [adjacent_cons, not_adjacent_nil]
    | cons y l =>
      obtain ⟨fresh, nd⟩ := List.nodup_cons.mp nd
      rw [List.getLast?_cons_cons] at last
      rw [adjacent_cons]
      rintro (⟨rfl, _⟩ | h)
      · exact fresh (List.mem_of_getLast? last)
      · exact ih nd last h

variable {s : ChainSet} {n : Nat}

lemma before_irrefl (s : ChainSet) (a : Nat) : ¬ s.before a a = true := by
  rw [before]
  cases s.ops[a]? with
  | none => simp
  | some x => exact VectorClock.lt_irrefl x.clock

lemma before_trans {a b c : Nat} (ab : s.before a b = true) (bc : s.before b c = true) :
    s.before a c = true := by
  simp only [before] at *
  cases ha : s.ops[a]? <;> cases hb : s.ops[b]? <;> cases hc : s.ops[c]? <;> simp_all
  exact VectorClock.lt_trans ab bc

lemma lt_size_of_before {a b : Nat} (h : s.before a b = true) :
    a < s.ops.size ∧ b < s.ops.size := by
  rw [before] at h
  by_contra out
  rw [not_and_or, Nat.not_lt, Nat.not_lt] at out
  rcases out with out | out <;> simp [Array.getElem?_eq_none out] at h

lemma before_add {id : OperationId} {clock : VectorClock} {a b : Nat} (ha : a < s.ops.size)
    (hb : b < s.ops.size) : (s.add id clock).before a b = s.before a b := by
  simp only [before, add, Array.getElem?_push_lt ha, Array.getElem?_push_lt hb,
    Array.getElem?_eq_getElem ha, Array.getElem?_eq_getElem hb]

/-- The first `n` operations lie in chains, and the indexes agree with the chains. -/
structure Linked (n : Nat) (s : ChainSet) : Prop where
  order_nodup : s.order.Nodup
  mem_order : ∀ c, c ∈ s.order ↔ s.members.contains c = true
  lt_nextChainId : ∀ c ∈ s.order, c < s.nextChainId
  placed : ∀ op, op < n ↔ ∃ c, op ∈ s.opsOf c
  chainOf : ∀ op c, s.chainOf.get? op = some c ↔ op ∈ s.opsOf c
  next : ∀ a b, s.nextInChain.get? a = some b ↔ ∃ c, Adjacent (s.opsOf c) a b
  ordered : ∀ c, (s.opsOf c).Pairwise fun a b => s.before a b = true

namespace Linked

lemma unique (L : Linked n s) {op : Nat} {c d : ChainId} (hc : op ∈ s.opsOf c)
    (hd : op ∈ s.opsOf d) : c = d := by
  rw [← L.chainOf] at hc hd
  exact Option.some.inj (hc.symm.trans hd)

lemma nodup (L : Linked n s) (c : ChainId) : (s.opsOf c).Nodup := by
  refine (L.ordered c).imp ?_
  rintro a _ h rfl
  exact before_irrefl s a h

lemma mem_order_of_mem (L : Linked n s) {op : Nat} {c : ChainId} (h : op ∈ s.opsOf c) :
    c ∈ s.order := by
  rw [L.mem_order, SortedMap.contains]
  cases e : s.members.get? c with
  | none => simp [opsOf, e] at h
  | some _ => rfl

lemma opsOf_eq_nil (L : Linked n s) {c : ChainId} (h : c ∉ s.order) : s.opsOf c = [] := by
  cases e : s.opsOf c with
  | nil => rfl
  | cons op ops => exact absurd (L.mem_order_of_mem (by simp [e] : op ∈ s.opsOf c)) h

lemma next_tail (L : Linked n s) {c : ChainId} {op : Nat} (tail : s.tail? c = some op) :
    s.nextInChain.get? op = none := by
  rw [Option.eq_none_iff_forall_ne_some]
  intro b h
  obtain ⟨d, adj⟩ := (L.next op b).mp h
  cases L.unique (List.mem_of_getLast? tail) adj.mem_left
  exact not_adjacent_getLast? (L.nodup c) tail adj

lemma before_tail (L : Linked n s) {c : ChainId} {op tail : Nat} (mem : op ∈ s.opsOf c)
    (last : s.tail? c = some tail) : op = tail ∨ s.before op tail = true := by
  obtain ⟨front, e⟩ := List.getLast?_eq_some_iff.mp last
  rw [e, List.mem_append, List.mem_singleton] at mem
  rcases mem with mem | rfl
  · have ordered := L.ordered c
    rw [e, List.pairwise_append] at ordered
    exact .inr (ordered.2.2 op mem tail (by simp))
  · exact .inl rfl

end Linked

lemma opsOf_append (c d : ChainId) (op : Nat) :
    (s.append c op).opsOf d = if d = c then s.opsOf c ++ [op] else s.opsOf d := by
  simp only [opsOf, append, SortedMap.get?_alter]
  split <;> rfl

lemma tail?_append (c d : ChainId) (op : Nat) :
    (s.append c op).tail? d = if d = c then some op else s.tail? d := by
  rw [tail?, opsOf_append]
  split
  · rw [List.getLast?_append, List.getLast?_singleton, Option.some_or]
  · rfl

lemma head?_append {c : ChainId} {tail : Nat} (last : s.tail? c = some tail) (d : ChainId)
    (op : Nat) : (s.append c op).head? d = s.head? d := by
  have nonempty : s.opsOf c ≠ [] := List.ne_nil_of_mem (List.mem_of_getLast? last)
  rw [head?, opsOf_append]
  split
  · next e => rw [List.head?_append_of_ne_nil _ nonempty, head?, e]
  · rfl

lemma chainOf_append (c : ChainId) (op x : Nat) :
    (s.append c op).chainOf.get? x = if x = op then some c else s.chainOf.get? x :=
  SortedMap.get?_insert

lemma next_append {c : ChainId} {tail : Nat} (last : s.tail? c = some tail) (op x : Nat) :
    (s.append c op).nextInChain.get? x = if x = tail then some op else s.nextInChain.get? x := by
  simp only [append, last, SortedMap.get?_insert]

/-- An operation that joins the end of a chain keeps the indexes in step. -/
lemma Linked.append (L : Linked n s) {c : ChainId} {tail : Nat} (last : s.tail? c = some tail)
    (bef : s.before tail n = true) : Linked (n + 1) (s.append c n) := by
  have mem : tail ∈ s.opsOf c := List.mem_of_getLast? last
  have exists_c : c ∈ s.order := L.mem_order_of_mem mem
  have fresh : ∀ d, n ∉ s.opsOf d := fun d h => Nat.lt_irrefl n ((L.placed n).mpr ⟨d, h⟩)
  constructor
  case order_nodup => exact L.order_nodup
  case lt_nextChainId => exact L.lt_nextChainId
  case mem_order =>
    intro d
    show d ∈ s.order ↔ _
    simp only [SortedMap.contains, ChainSet.append, SortedMap.get?_alter]
    split
    · next e => simp [e, exists_c]
    · exact L.mem_order d
  case placed =>
    intro op
    have := L.placed op
    simp only [opsOf_append]
    grind
  case chainOf =>
    intro op d
    have := L.chainOf op d
    rw [opsOf_append, chainOf_append]
    grind
  case next =>
    intro a b
    -- The one pair of neighbours that is new is the old end and the operation.
    have adj : Adjacent (s.opsOf c ++ [n]) a b ↔
        Adjacent (s.opsOf c) a b ∨ (a = tail ∧ b = n) := by
      rw [adjacent_append, show (s.opsOf c).getLast? = some tail from last]
      simp [adjacent_cons, not_adjacent_nil, eq_comm]
    have old := L.next a b
    have none := L.next_tail last
    rw [next_append last]
    simp only [opsOf_append]
    grind
  case ordered =>
    intro d
    rw [opsOf_append]
    split
    · next e =>
      rw [List.pairwise_append]
      refine ⟨L.ordered c, List.pairwise_singleton _ _, fun op h x hx => ?_⟩
      cases List.mem_singleton.mp hx
      rcases L.before_tail h last with rfl | h
      · exact bef
      · exact before_trans h bef
    · exact L.ordered d

lemma opsOf_beginChain (d : ChainId) (op position : Nat) :
    (s.beginChain op position).opsOf d = if d = s.nextChainId then [op] else s.opsOf d := by
  simp only [opsOf, beginChain, SortedMap.get?_insert]
  split <;> rfl

lemma chainOf_beginChain (op position x : Nat) :
    (s.beginChain op position).chainOf.get? x =
      if x = op then some s.nextChainId else s.chainOf.get? x :=
  SortedMap.get?_insert

/-- An operation that begins a chain keeps the indexes in step. -/
lemma Linked.beginChain (L : Linked n s) {position : Nat} (le : position ≤ s.order.length) :
    Linked (n + 1) (s.beginChain n position) := by
  have new : s.nextChainId ∉ s.order := fun h => Nat.lt_irrefl _ (L.lt_nextChainId _ h)
  have empty : s.opsOf s.nextChainId = [] := L.opsOf_eq_nil new
  have perm : (s.beginChain n position).order.Perm (s.nextChainId :: s.order) :=
    List.perm_insertIdx _ _ le
  constructor
  case order_nodup =>
    rw [perm.nodup_iff, List.nodup_cons]
    exact ⟨new, L.order_nodup⟩
  case mem_order =>
    intro d
    rw [perm.mem_iff, List.mem_cons, L.mem_order]
    simp only [SortedMap.contains, ChainSet.beginChain, SortedMap.get?_insert]
    split <;> simp_all
  case lt_nextChainId =>
    intro d h
    rw [perm.mem_iff, List.mem_cons] at h
    show d < s.nextChainId + 1
    rcases h with rfl | h
    · exact Nat.lt_succ_self _
    · exact Nat.lt_succ_of_lt (L.lt_nextChainId d h)
  case placed =>
    intro op
    have := L.placed op
    simp only [opsOf_beginChain]
    grind
  case chainOf =>
    intro op d
    have := L.chainOf op d
    have fresh : n ∉ s.opsOf d := fun h => Nat.lt_irrefl n ((L.placed n).mpr ⟨d, h⟩)
    rw [opsOf_beginChain, chainOf_beginChain]
    grind
  case next =>
    intro a b
    have old := L.next a b
    have single : ¬ Adjacent [n] a b := by simp [adjacent_cons, not_adjacent_nil]
    have nil : ¬ Adjacent [] a b := not_adjacent_nil
    show s.nextInChain.get? a = some b ↔ _
    simp only [opsOf_beginChain]
    grind
  case ordered =>
    intro d
    rw [opsOf_beginChain]
    split
    · exact List.pairwise_singleton _ _
    · exact L.ordered d

/-- A list is cut before the first occurrence of an operation. -/
lemma takeWhile_ne_append {op : Nat} {front : List Nat} (fresh : op ∉ front) (back : List Nat) :
    (front ++ op :: back).takeWhile (· != op) = front ∧
      (front ++ op :: back).dropWhile (· != op) = op :: back := by
  induction front with
  | nil => simp
  | cons x front ih =>
    rw [List.mem_cons, not_or] at fresh
    simp [Ne.symm fresh.1, ih fresh.2]

lemma get?_foldl_insert (c : ChainId) (moved : List Nat) (m : SortedMap Nat ChainId) (x : Nat) :
    (moved.foldl (fun m y => m.insert y c) m).get? x =
      if x ∈ moved then some c else m.get? x := by
  induction moved generalizing m with
  | nil => simp
  | cons y moved ih =>
    rw [List.foldl_cons, ih, SortedMap.get?_insert]
    grind

section Relink

variable {source target : ChainId} {op : Nat} {front : List Nat}

/-- What follows an operation in its chain is moved to the end of another; only these two chains
change. -/
lemma opsOf_relink (ne : target ≠ source) (fresh : op ∉ front) (back : List Nat) (pred : Nat)
    (c : ChainId) :
    (s.relink source target (front ++ op :: back) pred op).opsOf c =
      if c = target then s.opsOf target ++ op :: back
      else if c = source then front
      else s.opsOf c := by
  obtain ⟨kept, moved⟩ := takeWhile_ne_append fresh back
  simp only [opsOf, relink, kept, moved, SortedMap.get?_alter, SortedMap.get?_insert, if_neg ne]
  split
  · rfl
  · split <;> rfl

variable (source target)

lemma chainOf_relink (fresh : op ∉ front) (back : List Nat) (pred x : Nat) :
    (s.relink source target (front ++ op :: back) pred op).chainOf.get? x =
      if x ∈ op :: back then some target else s.chainOf.get? x := by
  simp only [relink, (takeWhile_ne_append fresh back).2]
  exact get?_foldl_insert target _ _ x

/-- The link to the operation that is moved is cut, and it gets another. -/
lemma next_relink (fresh : op ∉ front) (back : List Nat) (pred x : Nat) :
    (s.relink source target (front ++ op :: back) pred op).nextInChain.get? x =
      if x = pred then some op
      else if front.getLast? = some x then none
      else s.nextInChain.get? x := by
  simp only [relink, (takeWhile_ne_append fresh back).1, SortedMap.get?_insert]
  split
  · rfl
  · cases e : front.getLast? with
    | none => simp
    | some tail => simp only [SortedMap.get?_erase, Option.some.injEq, eq_comm]

end Relink

lemma Linked.not_mem_front (L : Linked n s) {c : ChainId} {op : Nat} {front back : List Nat}
    (split : s.opsOf c = front ++ op :: back) : op ∉ front := by
  have nodup : (front ++ op :: back).Nodup := split ▸ L.nodup c
  exact (List.disjoint_cons_right.mp (List.disjoint_of_nodup_append nodup)).1

/-- The end of a chain lies in another chain than an operation that it happens before. -/
lemma Linked.ne_of_before (L : Linked n s) {source target : ChainId} {pred op : Nat}
    (last : s.tail? target = some pred) (mem : op ∈ s.opsOf source)
    (bef : s.before pred op = true) : target ≠ source := by
  rintro rfl
  rcases L.before_tail mem last with rfl | h
  · exact before_irrefl s op bef
  · exact before_irrefl s pred (before_trans bef h)

/-- Moving the rest of a chain to the end of another keeps the indexes in step. -/
lemma Linked.relink (L : Linked n s) {source target : ChainId} {pred op : Nat}
    {front back : List Nat} (split : s.opsOf source = front ++ op :: back)
    (last : s.tail? target = some pred) (bef : s.before pred op = true) :
    Linked n (s.relink source target (s.opsOf source) pred op) := by
  have mem : op ∈ s.opsOf source := by simp [split]
  have mem_pred : pred ∈ s.opsOf target := List.mem_of_getLast? last
  have ne : target ≠ source := L.ne_of_before last mem bef
  have nodup : (front ++ op :: back).Nodup := split ▸ L.nodup source
  have fresh : op ∉ front := L.not_mem_front split
  have opsOf := opsOf_relink (s := s) ne fresh back pred
  have next := next_relink (s := s) source target fresh back pred
  have chainOf := chainOf_relink (s := s) source target fresh back pred
  rw [split]
  constructor
  case order_nodup => exact L.order_nodup
  case lt_nextChainId => exact L.lt_nextChainId
  case mem_order =>
    intro c
    show c ∈ s.order ↔ _
    simp only [SortedMap.contains, ChainSet.relink, SortedMap.get?_alter, SortedMap.get?_insert]
    have := L.mem_order_of_mem mem
    have := L.mem_order_of_mem mem_pred
    have := L.mem_order c
    grind [SortedMap.contains]
  case placed =>
    intro x
    have := L.placed x
    simp only [opsOf]
    grind
  case chainOf =>
    intro x c
    have := L.chainOf x c
    have apart : x ∈ s.opsOf c → x ∈ s.opsOf source → c = source := L.unique
    rw [chainOf, opsOf]
    grind
  case next =>
    intro a b
    -- Of the links only the one to `op` is cut, and `pred`, which had none, gets it.
    have old := L.next a b
    have nil := L.next_tail last
    have apart : ∀ c, a ∈ s.opsOf c → a ∈ s.opsOf source → c = source := fun _ => L.unique
    have adj_source : Adjacent (s.opsOf source) a b ↔ Adjacent front a b ∨
        (front.getLast? = some a ∧ op = b) ∨ Adjacent (op :: back) a b := by
      rw [split, adjacent_append, List.head?_cons, Option.some.injEq]
    have adj_target : Adjacent (s.opsOf target ++ op :: back) a b ↔
        Adjacent (s.opsOf target) a b ∨ (pred = a ∧ op = b) ∨ Adjacent (op :: back) a b := by
      rw [adjacent_append, show (s.opsOf target).getLast? = some pred from last,
        List.head?_cons, Option.some.injEq, Option.some.injEq]
    have not_front : front.getLast? = some a → ¬ Adjacent front a b :=
      not_adjacent_getLast? (List.nodup_append.mp nodup).1
    have mem_front : front.getLast? = some a → a ∈ front := List.mem_of_getLast?
    have left : ∀ l, Adjacent l a b → a ∈ l := fun _ h => h.mem_left
    rw [next]
    simp only [opsOf]
    grind
  case ordered =>
    intro c
    have ordered := split ▸ L.ordered source
    obtain ⟨ordered_front, ordered_back, _⟩ := List.pairwise_append.mp ordered
    rw [opsOf]
    split_ifs
    · refine List.pairwise_append.mpr ⟨L.ordered target, ordered_back, fun a ha b hb => ?_⟩
      have a_op : s.before a op = true := by
        rcases L.before_tail ha last with rfl | h
        · exact bef
        · exact before_trans h bef
      rcases List.mem_cons.mp hb with rfl | hb
      · exact a_op
      · exact before_trans a_op (List.rel_of_pairwise_cons ordered_back hb)
    · exact ordered_front
    · exact L.ordered c

end Interleaving.ChainSet
