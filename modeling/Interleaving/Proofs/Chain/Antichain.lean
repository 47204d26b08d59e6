import Mathlib
import Interleaving.Proofs.Chain.Partition

/-!
# The fewest chains

If operations are offered after all that happen before them, they are never divided into more chains
than they have to be: there are as many operations, none of which happens before another, as there are
chains (`ChainSet.exists_antichain_offerAll`).

Such operations are found by the search that finds no reduction. What it has examined is closed
(`Closed`): where an operation of another chain happens before one that was examined, the operation
behind it was examined too. So the last examined operation of each chain happens before none that was
examined (`Closed.antichain`).
-/

namespace Interleaving.ChainSet

variable {s s' : ChainSet} {n : Nat} {moves : Moves}

section Cutting

/-- Moves are added, and the operations that they are for are queued. -/
structure Grows (found found' : Moves × List Nat) : Prop where
  moves : ∀ x, found.1.contains x = true → found'.1.contains x = true
  queue : ∀ x ∈ found.2, x ∈ found'.2
  queued : ∀ x, found'.1.contains x = true → found.1.contains x = true ∨ x ∈ found'.2

variable {c : ChainId} {op pred next : Nat} {preds : List Nat}
variable {found found' found'' : Moves × List Nat}

lemma Grows.refl : Grows found found := ⟨fun _ h => h, fun _ h => h, fun _ h => .inl h⟩

lemma Grows.trans (G : Grows found found') (G' : Grows found' found'') : Grows found found'' := by
  refine ⟨fun x h => G'.moves x (G.moves x h), fun x h => G'.queue x (G.queue x h), fun x h => ?_⟩
  rcases G'.queued x h with h | h
  · exact (G.queued x h).imp_right (G'.queue x)
  · exact .inr h

lemma grows_cut : Grows found (s.cut c op found pred) := by
  rw [ChainSet.cut]
  split
  · exact .refl
  · split
    · next next _ =>
      split
      · exact .refl
      · refine ⟨fun x h => SortedMap.contains_insert.mpr (.inr h),
          fun x h => List.mem_append_left _ h, fun x h => ?_⟩
        rcases SortedMap.contains_insert.mp h with rfl | h
        · exact .inr (by simp)
        · exact .inl h
    · exact .refl

/-- What is behind an operation of another chain has a move once the link is cut. -/
lemma contains_cut (other : s.chainOf.get? pred ≠ some c)
    (link : s.nextInChain.get? pred = some next) :
    (s.cut c op found pred).1.contains next = true := by
  rw [ChainSet.cut, if_neg other, link]
  dsimp only
  split
  · assumption
  · exact SortedMap.contains_insert.mpr (.inl rfl)

lemma grows_cuts : Grows found (preds.foldl (s.cut c op) found) := by
  induction preds generalizing found with
  | nil => exact .refl
  | cons pred preds ih => exact grows_cut.trans ih

lemma contains_cuts (mem : pred ∈ preds) (other : s.chainOf.get? pred ≠ some c)
    (link : s.nextInChain.get? pred = some next) :
    (preds.foldl (s.cut c op) found).1.contains next = true := by
  induction preds generalizing found with
  | nil => cases mem
  | cons p preds ih =>
    rw [List.foldl_cons]
    rcases List.mem_cons.mp mem with rfl | mem
    · exact grows_cuts.moves _ (contains_cut other link)
    · exact ih mem

end Cutting

/-- No operation of a set can follow the end of another chain. Where an operation of another chain
happens before one of the set, the operation behind it is in the set. -/
structure Closed (s : ChainSet) (examined : Set Nat) : Prop where
  stuck : ∀ op ∈ examined, ∀ c, s.chainOf.get? op = some c → s.joinable? c op = none
  behind : ∀ op ∈ examined, ∀ c, s.chainOf.get? op = some c → ∀ pred ∈ s.predsOf op,
    s.chainOf.get? pred ≠ some c → ∀ next, s.nextInChain.get? pred = some next → next ∈ examined

/-- In the middle of a search, `done` are the operations examined so far. -/
structure Examining (s : ChainSet) (moves : Moves) (done : Set Nat) (queue : List Nat) : Prop where
  moved : ∀ op, moves.contains op = true → op ∈ done ∨ op ∈ queue
  stuck : ∀ op ∈ done, ∀ c, s.chainOf.get? op = some c → s.joinable? c op = none
  behind : ∀ op ∈ done, ∀ c, s.chainOf.get? op = some c → ∀ pred ∈ s.predsOf op,
    s.chainOf.get? pred ≠ some c → ∀ next, s.nextInChain.get? pred = some next →
      moves.contains next = true

/-- An operation that no chain but its own can take is examined. -/
lemma Examining.step {done : Set Nat} {op : Nat} {queue : List Nat} {c : ChainId}
    (E : Examining s moves done (op :: queue)) (chain : s.chainOf.get? op = some c)
    (join : s.joinable? c op = none) :
    let found := (s.predsOf op).foldl (s.cut c op) (moves, [])
    Examining s found.1 (insert op done) (queue ++ found.2) := by
  intro found
  have G : Grows (moves, []) found := grows_cuts
  constructor
  case moved =>
    intro x h
    rcases G.queued x h with h | h
    · rcases E.moved x h with h | h
      · exact .inl (.inr h)
      · rcases List.mem_cons.mp h with rfl | h
        · exact .inl (.inl rfl)
        · exact .inr (List.mem_append_left _ h)
    · exact .inr (List.mem_append_right _ h)
  case stuck =>
    rintro x (rfl | h) d chain'
    · cases chain.symm.trans chain'
      exact join
    · exact E.stuck x h d chain'
  case behind =>
    rintro x (rfl | h) d chain' pred mem other next link
    · cases chain.symm.trans chain'
      exact contains_cuts mem other link
    · exact G.moves next (E.behind x h d chain' pred mem other next link)

/-- A search that finds nothing ends with a closed set. -/
lemma Examining.search {done : Set Nat} {queue : List Nat} (E : Examining s moves done queue)
    (none : s.search moves queue = .ok none) :
    ∃ examined, Closed s examined ∧ done ⊆ examined ∧ ∀ op ∈ queue, op ∈ examined := by
  fun_induction ChainSet.search s moves queue generalizing done with
  | case1 =>
    refine ⟨done, ⟨E.stuck, fun op h c chain pred mem other next link => ?_⟩, subset_rfl, by simp⟩
    exact (E.moved next (E.behind op h c chain pred mem other next link)).resolve_right (by simp)
  | case2 => cases none
  | case3 => cases none
  | case4 moves op queue c chain join found =>
    rename_i ih
    obtain ⟨examined, closed, sub, queued⟩ := ih (E.step chain join) none
    refine ⟨examined, closed, fun x h => sub (.inr h), fun x h => ?_⟩
    rcases List.mem_cons.mp h with rfl | h
    · exact sub (.inl rfl)
    · exact queued x (List.mem_append_left _ h)

lemma closed_of_findReduction (none : s.findReduction = .ok none) :
    ∃ examined, Closed s examined ∧ ∀ c ∈ s.order, ∀ op, s.head? c = some op → op ∈ examined := by
  have E : Examining s .empty ∅ (s.order.filterMap s.head?) :=
    ⟨fun op h => (by cases h), by simp, by simp⟩
  obtain ⟨examined, closed, _, queued⟩ := E.search none
  exact ⟨examined, closed, fun c mem op first => queued op (List.mem_filterMap.mpr ⟨c, mem, first⟩)⟩

/-- Of a list in order, the last element with a property. -/
lemma exists_last {l : List Nat} {r : Nat → Nat → Prop} (ordered : l.Pairwise r) {P : Nat → Prop}
    (some : ∃ x ∈ l, P x) : ∃ x ∈ l, P x ∧ ∀ y ∈ l, P y → y = x ∨ r y x := by
  induction l with
  | nil => simp at some
  | cons a l ih =>
    obtain ⟨first, ordered⟩ := List.pairwise_cons.mp ordered
    by_cases later : ∃ x ∈ l, P x
    · obtain ⟨x, mem, h, last⟩ := ih ordered later
      refine ⟨x, List.mem_cons_of_mem a mem, h, fun y mem' h' => ?_⟩
      rcases List.mem_cons.mp mem' with rfl | mem'
      · exact .inr (first x mem)
      · exact last y mem' h'
    · obtain ⟨x, mem, h⟩ := some
      have none : ∀ y ∈ l, ¬ P y := fun y mem h => later ⟨y, mem, h⟩
      rcases List.mem_cons.mp mem with rfl | mem
      · refine ⟨x, List.mem_cons_self, h, fun y mem' h' => ?_⟩
        rcases List.mem_cons.mp mem' with rfl | mem'
        · exact .inl rfl
        · exact absurd h' (none y mem')
      · exact absurd h (none x mem)

lemma adjacent_or_getLast? {l : List Nat} {a : Nat} (mem : a ∈ l) :
    (∃ b, Adjacent l a b) ∨ l.getLast? = some a := by
  obtain ⟨front, back, rfl⟩ := List.append_of_mem mem
  cases back with
  | nil => exact .inr (by simp)
  | cons b back => exact .inl ⟨b, front, back, rfl⟩

/-- No operation happens before one that was offered earlier. -/
def Causal (s : ChainSet) : Prop := ∀ a b, s.before a b = true → a < b

/-- Of operations that are as many as the chains, none happens before another. -/
def Spread (s : ChainSet) : Prop :=
  ∃ antichain : Finset Nat, antichain.card = s.order.length ∧
    (∀ a ∈ antichain, a < s.ops.size) ∧ ∀ a ∈ antichain, ∀ b ∈ antichain, ¬ s.before a b = true

/-- The last operation of its chain that is in a closed set happens before none of the set. -/
lemma Closed.not_before (L : Linked n s) (known : s.Recorded) (causal : s.Causal)
    {examined : Set Nat} (C : Closed s examined) {c : ChainId} {a b : Nat} (mem : a ∈ s.opsOf c)
    (last : ∀ y ∈ s.opsOf c, y ∈ examined → y = a ∨ s.before y a = true) (hb : b ∈ examined)
    {d : ChainId} (mem' : b ∈ s.opsOf d) : ¬ s.before a b = true := by
  intro bef
  by_cases same : c = d
  · subst same
    rcases last b mem' hb with rfl | h
    · exact before_irrefl s b bef
    · exact before_irrefl s a (before_trans bef h)
  · have chain : s.chainOf.get? b = some d := (L.chainOf b d).mpr mem'
    have other : s.chainOf.get? a ≠ some d := by
      rw [(L.chainOf a c).mpr mem]
      exact fun e => same (Option.some.inj e)
    rcases adjacent_or_getLast? mem with ⟨next, adj⟩ | tail
    · -- What is behind `a` was examined too, so `a` was not the last one.
      have link : s.nextInChain.get? a = some next := (L.next a next).mpr ⟨c, adj⟩
      have pred : a ∈ s.predsOf b := (known b a).mpr ⟨causal a b bef, bef⟩
      have examined := C.behind b hb d chain a pred other next link
      have after : s.before a next = true := by
        obtain ⟨front, back, e⟩ := adj
        have ordered := (L.ordered c).isChain
        rw [e] at ordered
        exact ((List.isChain_append.mp ordered).2.1).rel
      rcases last next adj.mem_right examined with rfl | h
      · exact before_irrefl s next after
      · exact before_irrefl s a (before_trans after h)
    · exact not_before_of_joinable? (C.stuck b hb d chain) (L.mem_order_of_mem mem) same tail bef

/-- Where no reduction is found, there are operations as many as chains none of which happens before
another. -/
lemma Valid.spread (V : Valid s) (causal : s.Causal) (none : s.findReduction = .ok none) :
    s.Spread := by
  obtain ⟨examined, C, heads⟩ := closed_of_findReduction none
  have L := V.linked
  have exists_last : ∀ c ∈ s.order, ∃ a ∈ s.opsOf c, a ∈ examined ∧
      ∀ y ∈ s.opsOf c, y ∈ examined → y = a ∨ s.before y a = true := by
    intro c mem
    refine exists_last (L.ordered c) ?_
    obtain ⟨first, rest, e⟩ := List.exists_cons_of_ne_nil (V.live c mem)
    have head : s.head? c = some first := by rw [head?, e, List.head?_cons]
    exact ⟨first, List.mem_of_head? head, heads c mem first head⟩
  choose! last mem examined_last greatest using exists_last
  refine ⟨s.order.toFinset.image last, ?_, fun a ha => ?_, fun a ha b hb => ?_⟩
  · rw [Finset.card_image_of_injOn, List.toFinset_card_of_nodup L.order_nodup]
    intro c hc d hd e
    rw [List.coe_toFinset] at hc hd
    exact L.unique (mem c hc) (e ▸ mem d hd)
  · obtain ⟨c, hc, rfl⟩ := Finset.mem_image.mp ha
    exact (L.placed _).mpr ⟨c, mem c (List.mem_toFinset.mp hc)⟩
  · obtain ⟨c, hc, rfl⟩ := Finset.mem_image.mp ha
    obtain ⟨d, hd, rfl⟩ := Finset.mem_image.mp hb
    rw [List.mem_toFinset] at hc hd
    exact C.not_before L V.recorded causal (mem c hc) (greatest c hc) (examined_last d hd) (mem d hd)

/-- Joining chains stops where no reduction is found. -/
lemma findReduction_of_reduceAtMost {allowed : Nat} (run : s.reduceAtMost allowed = (s', none)) :
    s'.findReduction = .ok none := by
  induction allowed generalizing s with
  | zero =>
    rw [ChainSet.reduceAtMost] at run
    rcases e : s.findReduction with fault | _ | r <;> simp only [e, Prod.mk.injEq] at run
    · cases run.2
    · exact run.1 ▸ e
    · cases run.2
  | succ allowed ih =>
    rw [ChainSet.reduceAtMost] at run
    rcases e : s.findReduction with fault | _ | r <;> simp only [e, Prod.mk.injEq] at run
    · cases run.2
    · exact run.1 ▸ e
    · rcases spliced : s.splice r with ⟨t, _ | fault⟩ <;> simp only [spliced] at run
      · exact ih run
      · cases run

/-- An operation that is taken in joins a chain, or no reduction is left after it. -/
lemma offer_cases {id : OperationId} {clock : VectorClock} {choices rest : ChoiceStream}
    (run : s.offer id clock choices = ((s', none), rest)) :
    (∃ c, s' = (s.add id clock).append c s.ops.size) ∨ s'.findReduction = .ok none := by
  simp only [ChainSet.offer, ChainSet.place] at run
  cases find : (s.add id clock).order.find? fun c =>
      ((s.add id clock).tail? c).any ((s.add id clock).before · s.ops.size) with
  | some c =>
    simp only [find, Prod.mk.injEq, and_true] at run
    exact .inl ⟨c, run.1.symm⟩
  | none =>
    refine .inr ?_
    by_cases first : (s.add id clock).order.isEmpty = true
    · simp only [find, if_pos first, Prod.mk.injEq] at run
      exact findReduction_of_reduceAtMost run.1
    · simp only [find, if_neg first, Prod.mk.injEq] at run
      exact findReduction_of_reduceAtMost run.1

/-- Where an operation joins a chain, the old operations still bear out the number of chains. -/
lemma Spread.append {id : OperationId} {clock : VectorClock} (S : s.Spread) (c : ChainId) :
    ((s.add id clock).append c s.ops.size).Spread := by
  obtain ⟨antichain, card, lt, free⟩ := S
  refine ⟨antichain, card, fun a ha => ?_, fun a ha b hb => ?_⟩
  · have size : (s.add id clock).ops.size = s.ops.size + 1 := Array.size_push _
    exact (lt a ha).trans (by rw [ChainSet.append, size]; exact Nat.lt_succ_self _)
  · have same : (s.add id clock).before a b = s.before a b := before_add (lt a ha) (lt b hb)
    show ¬ (s.add id clock).before a b = true
    rw [same]
    exact free a ha b hb

/-- Operations offered in causal order: none happens before an earlier one. -/
def CausallyOrdered (offers : List (OperationId × VectorClock)) : Prop :=
  offers.Pairwise fun earlier later => ¬ later.2.lt earlier.2 = true

instance (offers : List (OperationId × VectorClock)) : Decidable (CausallyOrdered offers) :=
  inferInstanceAs (Decidable (offers.Pairwise _))

/-- Whether one operation happens before another is read off their clocks. -/
lemma before_of_entries {offers : List (OperationId × VectorClock)}
    (entries : s.ops.toList.map (fun o => (o.id, o.clock)) = offers) (a b : Nat) :
    s.before a b = match offers[a]?, offers[b]? with
      | some x, some y => x.2.lt y.2
      | _, _ => false := by
  rw [← entries, before]
  simp only [List.getElem?_map, Array.getElem?_toList]
  cases s.ops[a]? <;> cases s.ops[b]? <;> rfl

lemma CausallyOrdered.causal {offers : List (OperationId × VectorClock)}
    (h : CausallyOrdered offers)
    (entries : s.ops.toList.map (fun o => (o.id, o.clock)) = offers) : s.Causal := by
  intro a b bef
  by_contra le
  rcases (Nat.not_lt.mp le).eq_or_lt with rfl | lt
  · exact before_irrefl s b bef
  · rw [before_of_entries entries] at bef
    split at bef
    · next x y ha hb =>
      obtain ⟨_, rfl⟩ := List.getElem?_eq_some_iff.mp ha
      obtain ⟨_, rfl⟩ := List.getElem?_eq_some_iff.mp hb
      exact List.pairwise_iff_getElem.mp h b a _ _ lt bef
    · cases bef

lemma Valid.spread_offerAll (V : Valid s) (S : s.Spread)
    {offers : List (OperationId × VectorClock)} (choices : ChoiceStream)
    (causal : CausallyOrdered (s.ops.toList.map (fun o => (o.id, o.clock)) ++ offers)) :
    ∀ s' rest, ChainSet.offerAll offers s choices = ((s', none), rest) → s'.Spread := by
  induction offers generalizing s choices with
  | nil =>
    rintro s' rest run
    cases run
    exact S
  | cons offer offers ih =>
    intro s' rest run
    obtain ⟨id, clock⟩ := offer
    obtain ⟨s₁, choices₁, run₁, V₁, ops⟩ := V.offer id clock choices
    have entries : s₁.ops.toList.map (fun o => (o.id, o.clock)) ++ offers =
        s.ops.toList.map (fun o => (o.id, o.clock)) ++ (id, clock) :: offers := by
      rw [ops]
      simp [ChainSet.add]
    have causal₁ : CausallyOrdered (s₁.ops.toList.map (fun o => (o.id, o.clock)) ++ offers) := by
      rwa [entries]
    have S₁ : s₁.Spread := by
      rcases offer_cases run₁ with ⟨c, rfl⟩ | none
      · exact S.append c
      · exact V₁.spread (CausallyOrdered.causal (List.pairwise_append.mp causal₁).1 rfl) none
    rw [ChainSet.offerAll, run₁] at run
    exact ih V₁ S₁ choices₁ causal₁ s' rest run

/-- Of operations none of which happens before another, each needs a chain of its own. -/
lemma card_le_of_cover {antichain : Finset Nat}
    (free : ∀ a ∈ antichain, ∀ b ∈ antichain, ¬ s.before a b = true) {cover : List (List Nat)}
    (covers : ∀ a ∈ antichain, ∃ chain ∈ cover, a ∈ chain)
    (ordered : ∀ chain ∈ cover, chain.Pairwise fun a b => s.before a b = true) :
    antichain.card ≤ cover.length := by
  choose! chain mem holds using covers
  refine (Finset.card_le_card_of_injOn chain (t := cover.toFinset) ?_ ?_).trans
    cover.toFinset_card_le
  · exact fun a ha => List.mem_toFinset.mpr (mem a ha)
  · intro a ha b hb same
    by_contra ne
    have related : (chain a).Pairwise fun x y => s.before x y = true ∨ s.before y x = true :=
      (ordered _ (mem a ha)).imp .inl
    have : Std.Symm fun x y => s.before x y = true ∨ s.before y x = true := ⟨fun _ _ => Or.symm⟩
    rcases related.forall (holds a ha) (same ▸ holds b hb) ne with h | h
    · exact free a ha b hb h
    · exact free b hb a ha h

/-- Where no operation happens before one that was offered earlier, there are, once all are taken in,
as many operations as chains none of which happens before another. So no way to divide the operations
into ordered chains has fewer. As the beginning of a sequence in causal order is one, this holds after
each operation. -/
theorem exists_antichain_offerAll {offers : List (OperationId × VectorClock)}
    (causal : CausallyOrdered offers) (choices : ChoiceStream) :
    ∃ s rest, offerAll offers .empty choices = ((s, none), rest) ∧
      s.ops.toList.map (fun o => (o.id, o.clock)) = offers ∧
      (∃ antichain : Finset Nat, antichain.card = s.order.length ∧
        (∀ a ∈ antichain, a < s.ops.size) ∧
        ∀ a ∈ antichain, ∀ b ∈ antichain, ¬ s.before a b = true) ∧
      ∀ cover : List (List Nat), (∀ op < s.ops.size, ∃ chain ∈ cover, op ∈ chain) →
        (∀ chain ∈ cover, chain.Pairwise fun a b => s.before a b = true) →
          s.order.length ≤ cover.length := by
  obtain ⟨s, rest, run, _, ops⟩ := Valid.empty.offerAll offers choices
  have start : Spread .empty := ⟨∅, rfl, by simp, by simp⟩
  have S : s.Spread := Valid.empty.spread_offerAll start choices (by simpa [empty]) s rest run
  refine ⟨s, rest, run, ops, S, fun cover covers ordered => ?_⟩
  obtain ⟨antichain, card, lt, free⟩ := S
  rw [← card]
  exact card_le_of_cover free (fun a ha => covers a (lt a ha)) ordered

/-- The third operation joins the chain of the first, so the fourth begins a chain of its own. Joining
chains leaves two again, since two chains can hold all four. -/
theorem two_chains_of_four :
    let choices := ChoiceStream.ofSeed 7
    let offers : List (OperationId × VectorClock) :=
      [(1, .ofList [("x", 1)]), (2, .ofList [("y", 1)]), (3, .ofList [("x", 1), ("y", 1), ("z", 1)]),
        (4, .ofList [("x", 2)])]
    CausallyOrdered offers ∧
      ∃ s rest, offerAll offers .empty choices = ((s, none), rest) ∧ s.order.length ≤ 2 := by
  intro choices offers
  have causal : CausallyOrdered offers := by decide
  obtain ⟨s, rest, run, entries, _, fewest⟩ := exists_antichain_offerAll causal choices
  have size : s.ops.size = 4 := by
    rw [← Array.length_toList, ← List.length_map (fun o : OfferedOperation => (o.id, o.clock)), entries]
    rfl
  have before : s.before 0 3 = true ∧ s.before 1 2 = true := by
    rw [before_of_entries entries, before_of_entries entries]
    decide
  refine ⟨causal, s, rest, run, fewest [[0, 3], [1, 2]] (fun op lt => ?_) ?_⟩
  · rw [size] at lt
    interval_cases op <;> simp
  · simpa using before

end Interleaving.ChainSet
