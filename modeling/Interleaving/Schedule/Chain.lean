import Interleaving.Choice.Stream
import Interleaving.Operation

/-!
# Chains of operations

The operations offered in a run, divided into chains in which each happens before the next. A new
operation joins the first chain whose last operation happens before it, or begins a chain. Chains
are then joined, along a path of operations that change their predecessors, until the end of no
chain happens before the beginning of another.

Beside the chains themselves there are indexes: the order of the chains, the chain of each operation
and the operation behind it. Each change of a chain has to keep all of them in step.
-/

namespace Interleaving

/-- The number by which a chain is known. A number is never used again. -/
abbrev ChainId := Nat

/-- An operation as it was offered. -/
structure OfferedOperation where
  id : OperationId
  clock : VectorClock
  /-- The numbers of the operations offered earlier that happen before it. -/
  preds : List Nat

/-- The operations of a run, numbered in the order in which they were offered, and their chains. -/
structure ChainSet where
  ops : Array OfferedOperation
  /-- The operations of each chain, first to last. -/
  members : SortedMap ChainId (List Nat)
  /-- The chains, the one of highest priority first. -/
  order : List ChainId
  /-- The chain of each operation. -/
  chainOf : SortedMap Nat ChainId
  /-- The operation behind each operation that is not the last of its chain. -/
  nextInChain : SortedMap Nat Nat
  /-- The number of the next chain that is begun. -/
  nextChainId : ChainId

/-- What a correct division into chains rules out. -/
inductive ChainFault where
  /-- Joining chains did not come to an end. -/
  | notConverged
  /-- An operation to be examined is in no chain. -/
  | unplacedQueued
  /-- A path of moves did not come to an end. -/
  | cycled
  /-- The new predecessor of a moved operation is in no chain. -/
  | unplacedPredecessor
  /-- A moved operation is in no chain. -/
  | unplacedOperation
  /-- The new predecessor of a moved operation does not end another chain. -/
  | notAnotherTail
  /-- The chain of a moved operation does not exist. -/
  | missingChain
  /-- The chain of a moved operation does not hold it. -/
  | missingOperation
deriving DecidableEq

/-- The text of a fault. -/
def ChainFault.message : ChainFault → String
  | notConverged => "chain reduction did not converge"
  | unplacedQueued => "queued operation has no chain"
  | cycled => "chain splice cycled"
  | unplacedPredecessor => "unplaced predecessor"
  | unplacedOperation => "unplaced operation"
  | notAnotherTail => "splice target is not the tail of another chain"
  | missingChain => "missing chain"
  | missingOperation => "operation missing from its chain"

/-- For each operation that can be moved: its new predecessor, and the operation that must be moved
next, because the two were neighbours. -/
abbrev Moves := SortedMap Nat (Nat × Nat)

/-- A way to save a chain: `op` is to follow `pred`, the end of another chain, and each operation
that is thereby left without a place follows the one that `moves` names for it. -/
structure Reduction where
  pred : Nat
  op : Nat
  moves : Moves

namespace ChainSet

/-- No operations. -/
def empty : ChainSet := ⟨#[], .empty, [], .empty, .empty, 0⟩

/-- Takes note of an operation, without a place in a chain yet. -/
def add (s : ChainSet) (id : OperationId) (clock : VectorClock) : ChainSet :=
  let preds := (List.range s.ops.size).filter fun i => (s.ops[i]?).any (·.clock.lt clock)
  { s with ops := s.ops.push ⟨id, clock, preds⟩ }

/-- Whether one operation happens before another. -/
def before (s : ChainSet) (a b : Nat) : Bool :=
  match s.ops[a]?, s.ops[b]? with
  | some x, some y => x.clock.lt y.clock
  | _, _ => false

/-- The operations offered before an operation that happen before it. -/
def predsOf (s : ChainSet) (op : Nat) : List Nat :=
  match s.ops[op]? with
  | some o => o.preds
  | none => []

/-- The operations of a chain. -/
def opsOf (s : ChainSet) (chain : ChainId) : List Nat := (s.members.get? chain).getD []

/-- The chains, the one of highest priority first. -/
def chains (s : ChainSet) : List (List Nat) := s.order.map s.opsOf

/-- The first operation of a chain. -/
def head? (s : ChainSet) (chain : ChainId) : Option Nat := (s.opsOf chain).head?

/-- The last operation of a chain. -/
def tail? (s : ChainSet) (chain : ChainId) : Option Nat := (s.opsOf chain).getLast?

/-- Puts an operation at the end of a chain. -/
def append (s : ChainSet) (chain : ChainId) (op : Nat) : ChainSet :=
  { s with
    nextInChain := match s.tail? chain with
      | some tail => s.nextInChain.insert tail op
      | none => s.nextInChain
    members := s.members.alter chain fun ops => ops.getD [] ++ [op]
    chainOf := s.chainOf.insert op chain }

/-- Begins a chain with an operation, at a priority. -/
def beginChain (s : ChainSet) (op : Nat) (position : Nat) : ChainSet :=
  { s with
    members := s.members.insert s.nextChainId [op]
    chainOf := s.chainOf.insert op s.nextChainId
    order := s.order.insertIdx position s.nextChainId
    nextChainId := s.nextChainId + 1 }

/-- Puts an operation at the end of the first chain that can take it, or begins a chain at a
priority below the highest. The answer tells whether a chain was begun. -/
def place (s : ChainSet) (op : Nat) (choices : ChoiceStream) : Bool × ChainSet × ChoiceStream :=
  match s.order.find? fun c => (s.tail? c).any (s.before · op) with
  | some chain => (false, s.append chain op, choices)
  | none =>
    if s.order.isEmpty then (true, s.beginChain op 0, choices)
    else
      let (i, choices) := choices.nextIndex s.order.length
      (true, s.beginChain op (i + 1), choices)

/-- The end of the first other chain that happens before an operation of the chain `chain`. -/
def joinable? (s : ChainSet) (chain : ChainId) (op : Nat) : Option Nat :=
  s.order.findSome? fun c => if c = chain then none else (s.tail? c).filter (s.before · op)

/-- Notes that the operation behind `pred` can be moved if `op`, of the chain `chain`, follows
`pred`, and queues it. An operation is queued once. -/
def cut (s : ChainSet) (chain : ChainId) (op : Nat) (found : Moves × List Nat) (pred : Nat) :
    Moves × List Nat :=
  if s.chainOf.get? pred = some chain then found
  else
    match s.nextInChain.get? pred with
    | some next =>
      if found.1.contains next then found
      else (found.1.insert next (pred, op), found.2 ++ [next])
    | none => found

/-- The number of links between neighbours that have not been cut. -/
def uncut (s : ChainSet) (moves : Moves) : Nat := s.nextInChain.values.countP (!moves.contains ·)

theorem uncut_insert_lt {s : ChainSet} {moves : Moves} {a next : Nat} (move : Nat × Nat)
    (hnext : s.nextInChain.get? a = some next) (hnew : moves.contains next = false) :
    s.uncut (moves.insert next move) < s.uncut moves := by
  have hmem : next ∈ s.nextInChain.values :=
    List.mem_map.mpr ⟨(a, next), SortedMap.mem_toList_iff.mpr hnext, rfl⟩
  have hof : ∀ k, moves.contains k = true → (moves.insert next move).contains k = true := by
    intro k hk
    simp only [SortedMap.contains, SortedMap.get?_insert] at hk ⊢
    split <;> simp_all
  have hself : (moves.insert next move).contains next = true := by
    simp [SortedMap.contains, SortedMap.get?_insert]
  unfold uncut
  generalize s.nextInChain.values = values at hmem
  induction values with
  | nil => cases hmem
  | cons v vs ih =>
    have hle : vs.countP (!(moves.insert next move).contains ·) ≤
        vs.countP (!moves.contains ·) :=
      List.countP_mono_left fun k _ hk => by
        cases h : moves.contains k
        · rfl
        · simp [hof k h] at hk
    rcases List.mem_cons.mp hmem with rfl | hmem
    · simp only [List.countP_cons, hself, hnew]
      simp
      omega
    · have := ih hmem
      have := hof v
      simp only [List.countP_cons]
      cases h : moves.contains v
      · cases (moves.insert next move).contains v <;> simp <;> omega
      · rw [hof v h]
        simpa using ih hmem

theorem uncut_cuts_le (s : ChainSet) (chain : ChainId) (op : Nat) (preds : List Nat)
    (found : Moves × List Nat) :
    s.uncut (preds.foldl (s.cut chain op) found).1 +
      (preds.foldl (s.cut chain op) found).2.length ≤ s.uncut found.1 + found.2.length := by
  induction preds generalizing found with
  | nil => exact Nat.le_refl _
  | cons pred preds ih =>
    refine Nat.le_trans (ih _) ?_
    unfold cut
    split
    · exact Nat.le_refl _
    · split
      · next next hnext =>
        split
        · exact Nat.le_refl _
        · next hnew =>
          have := uncut_insert_lt (pred, op) hnext (by simpa using hnew)
          simp only [List.length_append, List.length_singleton]
          omega
      · exact Nat.le_refl _

/-- Examines operations in the order of a queue until one can follow the end of another chain. Each
operation examined cuts the links of other chains that start before it, and the operations behind
these are queued. -/
def search (s : ChainSet) (moves : Moves) : List Nat → Except ChainFault (Option Reduction)
  | [] => .ok none
  | op :: queue =>
    match s.chainOf.get? op with
    | none => .error .unplacedQueued
    | some chain =>
      match s.joinable? chain op with
      | some pred => .ok (some ⟨pred, op, moves⟩)
      | none =>
        let found := (s.predsOf op).foldl (s.cut chain op) (moves, [])
        s.search found.1 (queue ++ found.2)
termination_by queue => s.uncut moves + queue.length
decreasing_by
  have := s.uncut_cuts_le chain op (s.predsOf op) (moves, [])
  simp only [List.length_append, List.length_cons, List.length_nil] at this ⊢
  omega

/-- Looks for a way to save a chain, from the beginnings of the chains on. -/
def findReduction (s : ChainSet) : Except ChainFault (Option Reduction) :=
  s.search .empty (s.order.filterMap s.head?)

/-- Moves `op`, and all that follow it among the operations `ops` of its chain `source`, to the end
`pred` of the chain `target`. -/
def relink (s : ChainSet) (source target : ChainId) (ops : List Nat) (pred op : Nat) : ChainSet :=
  let kept := ops.takeWhile (· != op)
  let moved := ops.dropWhile (· != op)
  let cut := match kept.getLast? with
    | some tail => s.nextInChain.erase tail
    | none => s.nextInChain
  { s with
    nextInChain := cut.insert pred op
    chainOf := moved.foldl (fun m x => m.insert x target) s.chainOf
    members := (s.members.insert source kept).alter target fun ops => ops.getD [] ++ moved }

/-- Moves an operation, and all that follow it in its chain, to the end of the chain `pred` ends. -/
def move (s : ChainSet) (pred op : Nat) : Except ChainFault ChainSet :=
  match s.chainOf.get? pred, s.chainOf.get? op with
  | none, _ => .error .unplacedPredecessor
  | _, none => .error .unplacedOperation
  | some target, some source =>
    if target = source || s.tail? target != some pred then .error .notAnotherTail
    else
      match s.members.get? source with
      | none => .error .missingChain
      | some ops =>
        if op ∈ ops then .ok (s.relink source target ops pred op) else .error .missingOperation

/-- Makes the moves of a reduction one after the other. -/
def moveAlong (moves : Moves) : Nat → (pred op : Nat) → ChainSet → ChainSet × Option ChainFault
  | 0, _, _, s => (s, some .cycled)
  | fuel + 1, pred, op, s =>
    match s.move pred op with
    | .error fault => (s, some fault)
    | .ok s =>
      match moves.get? op with
      | some (pred, op) => moveAlong moves fuel pred op s
      | none => (s, none)

/-- Drops the chains that hold no operation. -/
def dropEmpty (s : ChainSet) : ChainSet :=
  { s with
    members := s.members.filter fun _ ops => !ops.isEmpty
    order := s.order.filter fun c => !(s.members.get? c).any (·.isEmpty) }

/-- Carries out a reduction and drops the chains that it leaves empty. -/
def splice (s : ChainSet) (r : Reduction) : ChainSet × Option ChainFault :=
  match moveAlong r.moves (s.ops.size + 1) r.pred r.op s with
  | (s, none) => (s.dropEmpty, none)
  | faulty => faulty

/-- Carries out reductions, at most as many as are allowed, as long as there is one. -/
def reduceAtMost (allowed : Nat) (s : ChainSet) : ChainSet × Option ChainFault :=
  match s.findReduction with
  | .error fault => (s, some fault)
  | .ok none => (s, none)
  | .ok (some r) =>
    match allowed with
    | 0 => (s, some .notConverged)
    | allowed + 1 =>
      match s.splice r with
      | (s, none) => reduceAtMost allowed s
      | faulty => faulty

/-- Joins chains until the end of no chain happens before the beginning of another. Each reduction
saves a chain. -/
def reduce (s : ChainSet) : ChainSet × Option ChainFault := s.reduceAtMost s.members.size

/-- Takes an operation in: adds it, places it in a chain, and joins chains if it begins one. -/
def offer (s : ChainSet) (id : OperationId) (clock : VectorClock) (choices : ChoiceStream) :
    (ChainSet × Option ChainFault) × ChoiceStream :=
  match (s.add id clock).place s.ops.size choices with
  | (false, s, choices) => ((s, none), choices)
  | (true, s, choices) => (s.reduce, choices)

/-- Gives a chain the lowest priority. -/
def demote (s : ChainSet) (chain : ChainId) : ChainSet :=
  { s with order := s.order.filter (· != chain) ++ [chain] }

end ChainSet

end Interleaving
