import Mathlib
import Interleaving.Proofs.Chain.Search

/-!
# Operations divided into chains

Taking in an operation never meets a fault, and keeps the operations divided into chains
(`Valid.offer`). So after any sequence of operations the chains are as `ChainSet.Divided` says: each
operation lies in one chain, all indexes agree with the chains, each chain is ordered, and the end of
no chain happens before the beginning of another (`divided_offerAll`).
-/

namespace Interleaving

lemma ChoiceStream.nextIndex_lt {length : Nat} (h : 0 < length) (choices : ChoiceStream) :
    (choices.nextIndex length).1 < length := by
  simp only [nextIndex, if_neg (Nat.pos_iff_ne_zero.mp h)]
  exact Nat.mod_lt _ h

namespace ChainSet

variable {s : ChainSet} {n : Nat} {id : OperationId} {clock : VectorClock}

/-- The chains of the operations taken in, as they are between two of them. -/
structure Valid (s : ChainSet) : Prop where
  linked : Linked s.ops.size s
  recorded : s.Recorded
  live : ∀ c ∈ s.order, s.opsOf c ≠ []
  reduced : s.Reduced

lemma Valid.empty : Valid .empty := by
  refine ⟨⟨List.nodup_nil, fun c => ?_, by rintro c ⟨⟩, fun op => ?_, fun op c => ?_, fun a b => ?_,
    fun c => List.Pairwise.nil⟩, fun op pred => ?_, by rintro c ⟨⟩, by rintro c ⟨⟩⟩
  · simp [ChainSet.empty, SortedMap.contains]
  · simp [ChainSet.empty, opsOf]
  · simp [ChainSet.empty, opsOf]
  · simp [ChainSet.empty, opsOf, not_adjacent_nil]
  · simp [ChainSet.empty, predsOf, before]

lemma Linked.add (L : Linked n s) : Linked n (s.add id clock) := by
  refine ⟨L.order_nodup, L.mem_order, L.lt_nextChainId, L.placed, L.chainOf, L.next, fun c => ?_⟩
  refine (L.ordered c).imp fun {a b} h => ?_
  obtain ⟨ha, hb⟩ := lt_size_of_before h
  rw [before_add ha hb, h]

lemma Recorded.add (known : s.Recorded) : (s.add id clock).Recorded := by
  intro op pred
  rcases Nat.lt_trichotomy op s.ops.size with lt | rfl | gt
  · have old := known op pred
    have same : (s.add id clock).predsOf op = s.predsOf op := by
      simp only [predsOf, ChainSet.add, Array.getElem?_push_lt lt, Array.getElem?_eq_getElem lt]
    rw [same, old]
    refine and_congr_right fun h => ?_
    rw [before_add (h.trans lt) lt]
  · have new : (s.add id clock).predsOf s.ops.size =
        (List.range s.ops.size).filter fun i => (s.ops[i]?).any (·.clock.lt clock) := by
      simp [predsOf, ChainSet.add]
    rw [new, List.mem_filter, List.mem_range]
    refine and_congr_right fun h => ?_
    simp [before, ChainSet.add, Array.getElem?_push_lt h, Array.getElem?_eq_getElem h]
  · have none : (s.add id clock).ops[op]? = none := by
      refine Array.getElem?_eq_none ?_
      simp only [ChainSet.add, Array.size_push]
      omega
    simp only [predsOf, before, none]
    cases (s.add id clock).ops[pred]? <;> simp

/-- Adding an operation does not reorder the ends of the chains. -/
lemma Valid.reduced_add (V : Valid s) : (s.add id clock).Reduced := by
  intro c hc d hd ne tail head last first
  have ht := (V.linked.placed tail).mpr ⟨c, List.mem_of_getLast? last⟩
  have hh := (V.linked.placed head).mpr ⟨d, List.mem_of_head? first⟩
  rw [before_add ht hh]
  exact V.reduced c hc d hd ne tail head last first

/-- Where an operation joins a chain, the new end is no earlier than the old one. -/
lemma Reduced.append (R : s.Reduced) {c : ChainId} {tail : Nat}
    (last : s.tail? c = some tail) (bef : s.before tail n = true) : (s.append c n).Reduced := by
  intro d hd e he ne t h last' first
  rw [head?_append last] at first
  rw [tail?_append] at last'
  split at last'
  · next eq =>
    cases Option.some.inj last'
    intro bef'
    exact R d hd e he ne tail h (eq ▸ last) first (before_trans bef bef')
  · exact R d hd e he ne t h last' first

/-- The last operation joins a chain. -/
lemma Valid.append (L : Linked n s) (size : s.ops.size = n + 1) (known : s.Recorded)
    (live : ∀ c ∈ s.order, s.opsOf c ≠ []) (reduced : s.Reduced) {c : ChainId} {tail : Nat}
    (last : s.tail? c = some tail) (bef : s.before tail n = true) : Valid (s.append c n) := by
  refine ⟨?_, known.of_ops_eq rfl, fun d h => ?_, reduced.append last bef⟩
  · show Linked s.ops.size _
    rw [size]
    exact L.append last bef
  · rw [opsOf_append]
    split
    · simp
    · exact live d h

/-- The last operation begins a chain, and chains are joined. -/
lemma Valid.beginChain (L : Linked n s) (size : s.ops.size = n + 1) (known : s.Recorded)
    (live : ∀ c ∈ s.order, s.opsOf c ≠ []) {position : Nat} (le : position ≤ s.order.length) :
    ∃ s', (s.beginChain n position).reduce = (s', none) ∧ Valid s' ∧ s'.ops = s.ops := by
  have known' : (s.beginChain n position).Recorded := known.of_ops_eq rfl
  have le_size : n + 1 ≤ (s.beginChain n position).ops.size := size.ge
  have live' : ∀ c ∈ (s.beginChain n position).order, (s.beginChain n position).opsOf c ≠ [] := by
    intro c h
    have mem := (List.perm_insertIdx s.nextChainId s.order le).mem_iff.mp h
    rw [opsOf_beginChain]
    split
    · simp
    · next ne => exact live c (List.mem_of_ne_of_mem ne mem)
  obtain ⟨s', run, L', ops, live', reduced⟩ := (L.beginChain le).reduce known' le_size live'
  have ops : s'.ops = s.ops := ops
  refine ⟨s', run, ⟨?_, known.of_ops_eq ops, live', reduced⟩, ops⟩
  -- Neither the new chain nor the reduction has changed the operations.
  rw [ops, size]
  exact L'

/-- Taking in an operation meets no fault and keeps the chains valid. -/
lemma Valid.offer (V : Valid s) (id : OperationId) (clock : VectorClock) (choices : ChoiceStream) :
    ∃ s' rest, s.offer id clock choices = ((s', none), rest) ∧ Valid s' ∧
      s'.ops = (s.add id clock).ops := by
  have L : Linked s.ops.size (s.add id clock) := V.linked.add
  have size : (s.add id clock).ops.size = s.ops.size + 1 := Array.size_push _
  have known : (s.add id clock).Recorded := V.recorded.add
  have live : ∀ c ∈ (s.add id clock).order, (s.add id clock).opsOf c ≠ [] := V.live
  simp only [ChainSet.offer, ChainSet.place]
  cases find : (s.add id clock).order.find? fun c =>
      ((s.add id clock).tail? c).any ((s.add id clock).before · s.ops.size) with
  | some c =>
    have joins := List.find?_some find
    rw [Option.any_eq_true] at joins
    obtain ⟨tail, last, bef⟩ := joins
    exact ⟨_, _, rfl, .append L size known live V.reduced_add last bef, rfl⟩
  | none =>
    by_cases first : (s.add id clock).order.isEmpty = true
    · obtain ⟨s', run, V', ops⟩ := Valid.beginChain L size known live (Nat.zero_le _)
      refine ⟨s', choices, ?_, V', ops⟩
      simp only [if_pos first, run]
    · have pos : 0 < (s.add id clock).order.length := by
        rw [List.length_pos_iff]
        exact fun e => first (List.isEmpty_iff.mpr e)
      have lt := ChoiceStream.nextIndex_lt pos choices
      obtain ⟨s', run, V', ops⟩ := Valid.beginChain L size known live (Nat.succ_le_of_lt lt)
      refine ⟨s', (choices.nextIndex (s.add id clock).order.length).2, ?_, V', ops⟩
      simp only [if_neg first]
      rw [← run]

/-- Takes in operations one after the other, up to the first fault. -/
def offerAll :
    List (OperationId × VectorClock) → ChainSet → ChoiceStream →
      (ChainSet × Option ChainFault) × ChoiceStream
  | [], s, choices => ((s, none), choices)
  | (id, clock) :: rest, s, choices =>
    match s.offer id clock choices with
    | ((s, none), choices) => offerAll rest s choices
    | faulty => faulty

lemma Valid.offerAll (V : Valid s) (offers : List (OperationId × VectorClock))
    (choices : ChoiceStream) :
    ∃ s' rest, ChainSet.offerAll offers s choices = ((s', none), rest) ∧ Valid s' ∧
      s'.ops.toList.map (fun o => (o.id, o.clock)) =
        s.ops.toList.map (fun o => (o.id, o.clock)) ++ offers := by
  induction offers generalizing s choices with
  | nil => exact ⟨s, choices, rfl, V, by simp⟩
  | cons offer offers ih =>
    obtain ⟨id, clock⟩ := offer
    obtain ⟨s₁, choices₁, run, V₁, ops⟩ := V.offer id clock choices
    obtain ⟨s₂, choices₂, run', V₂, ops'⟩ := ih V₁ choices₁
    refine ⟨s₂, choices₂, ?_, V₂, ?_⟩
    · simp only [ChainSet.offerAll, run, run']
    · rw [ops', ops]
      simp [ChainSet.add]

/-- The operations are divided into chains, and every index agrees with the chains. -/
structure Divided (s : ChainSet) : Prop where
  /-- Every operation lies in exactly one chain. -/
  existsUnique_chain : ∀ op < s.ops.size, ∃! c, op ∈ s.opsOf c
  /-- The chains hold nothing else. -/
  lt_size : ∀ c, ∀ op ∈ s.opsOf c, op < s.ops.size
  /-- No chain holds an operation twice. -/
  nodup_opsOf : ∀ c, (s.opsOf c).Nodup
  /-- The order lists the chains that there are. -/
  mem_order : ∀ c, c ∈ s.order ↔ ∃ ops, s.members.get? c = some ops
  /-- The order lists no chain twice. -/
  nodup_order : s.order.Nodup
  /-- No chain is empty. -/
  opsOf_ne_nil : ∀ c ∈ s.order, s.opsOf c ≠ []
  /-- The chain of an operation is the one that holds it. -/
  chainOf : ∀ op c, s.chainOf.get? op = some c ↔ op ∈ s.opsOf c
  /-- The links are the pairs of neighbours. -/
  nextInChain : ∀ a b, s.nextInChain.get? a = some b ↔ ∃ c, Adjacent (s.opsOf c) a b
  /-- Each operation of a chain happens before the next. -/
  ordered : ∀ c, (s.opsOf c).IsChain fun a b => s.before a b = true
  /-- The end of no chain happens before the beginning of another. -/
  reduced : s.Reduced

lemma Valid.divided (V : Valid s) : s.Divided where
  existsUnique_chain op lt := by
    obtain ⟨c, mem⟩ := (V.linked.placed op).mp lt
    exact ⟨c, mem, fun d mem' => V.linked.unique mem' mem⟩
  lt_size c op mem := (V.linked.placed op).mpr ⟨c, mem⟩
  nodup_opsOf := V.linked.nodup
  mem_order c := by rw [V.linked.mem_order, SortedMap.contains, Option.isSome_iff_exists]
  nodup_order := V.linked.order_nodup
  opsOf_ne_nil := V.live
  chainOf := V.linked.chainOf
  nextInChain := V.linked.next
  ordered c := (V.linked.ordered c).isChain
  reduced := V.reduced

/-- Whatever operations are taken in, with whatever clocks and priorities, there is no fault, and the
operations are divided into chains. As the beginning of a sequence of operations is one, this holds
after each operation. -/
theorem divided_offerAll (offers : List (OperationId × VectorClock)) (choices : ChoiceStream) :
    ∃ s rest, offerAll offers .empty choices = ((s, none), rest) ∧
      s.ops.toList.map (fun o => (o.id, o.clock)) = offers ∧ s.Divided := by
  obtain ⟨s, rest, run, V, ops⟩ := Valid.empty.offerAll offers choices
  exact ⟨s, rest, run, ops, V.divided⟩

end ChainSet

end Interleaving
