import Interleaving.Pattern.Tree

/-!
# Automata with empty moves

Nondeterministic automata over event terms, and their construction from pattern trees. A built
automaton begins in state `0` and accepts in its last state; sequences overlay the last state of
one automaton and the first state of the next.
-/

namespace Interleaving

/-- What an edge asks for: nothing, or an event that satisfies a term. -/
inductive Label where
  | epsilon
  | event (t : EventTerm)
deriving DecidableEq

namespace Label

/-- Whether an edge is passed without an event. -/
def isEpsilon : Label → Bool
  | epsilon => true
  | event _ => false

/-- The term of an edge. -/
def term? : Label → Option EventTerm
  | epsilon => none
  | event t => some t

/-- The text of a label. -/
def text : Label → String
  | epsilon => "ε"
  | event t => t.text

end Label

/-- The event kinds that a pattern asks about. -/
structure InterestingEvents where
  /-- The names in the pattern, the name of the any-term among them. -/
  kinds : SortedSet String
deriving DecidableEq

namespace InterestingEvents

/-- The kinds of a list. -/
def ofList (kinds : List String) : InterestingEvents := ⟨.ofList kinds⟩

/-- Whether the any-term is among the names. -/
def matchesAny (i : InterestingEvents) : Bool := i.kinds.contains EventTerm.anyName

/-- Whether an event kind is of interest; beside the any-term every kind is. -/
def contains (i : InterestingEvents) (kind : String) : Bool := i.matchesAny || i.kinds.contains kind

end InterestingEvents

/-- One edge of an automaton, with both its ends. -/
structure Transition where
  source : Nat
  target : Nat
  label : Label

/-- A nondeterministic automaton with states numbered from `0`. -/
structure Nfa where
  size : Nat
  initial : Nat
  accepting : Nat
  /-- The edges that leave each state, in the order in which they were added. -/
  edges : SortedMap Nat (List (Nat × Label))
deriving DecidableEq

namespace Nfa

/-- Edges with one more among them, unless it is there already. -/
def addTo (outs : List (Nat × Label)) (edge : Nat × Label) : List (Nat × Label) :=
  if edge ∈ outs then outs else outs ++ [edge]

/-- Adds an edge. -/
def addEdge (a : Nfa) (source target : Nat) (label : Label) : Nfa :=
  { a with edges := a.edges.alter source fun outs => addTo (outs.getD []) (target, label) }

/-- The automaton of two states and one edge. -/
def basic (label : Label) : Nfa := addEdge ⟨2, 0, 1, .empty⟩ 0 1 label

/-- Makes room for `by` states before the present ones. -/
def shifted (a : Nfa) (shift : Nat) : Nfa where
  size := a.size + shift
  initial := a.initial + shift
  accepting := a.accepting + shift
  edges := ⟨a.edges.toList.map fun (s, outs) => (s + shift, outs.map fun (t, l) => (t + shift, l)), by
    rw [List.pairwise_map]
    refine a.edges.sorted.imp fun h => ?_
    simp only [Nat.compare_eq_lt] at h ⊢
    omega⟩

/-- Takes over the edges and, if there are more, the states of another automaton. -/
def absorb (a b : Nfa) : Nfa where
  size := max a.size b.size
  initial := a.initial
  accepting := a.accepting
  edges := b.edges.toList.foldr
    (fun (s, outs) m => m.alter s fun present => outs.foldl addTo (present.getD [])) a.edges

/-- Adds a last state. -/
def addState (a : Nfa) : Nfa := { a with size := a.size + 1 }

/-- A new first state leads into both automata, and both lead into a new last state. -/
def alternation (left right : Nfa) : Nfa :=
  let left := left.shifted 1
  let right := right.shifted left.size
  let last := max right.size left.size
  let a := (right.absorb left).addEdge 0 left.initial .epsilon
  let a := (a.addEdge 0 right.initial .epsilon).addState
  let a := a.addEdge left.accepting last .epsilon
  let a := a.addEdge right.accepting last .epsilon
  { a with initial := 0, accepting := last }

/-- The first state of `right` is laid over the last state of `left`. -/
def concatenation (left right : Nfa) : Nfa :=
  { (right.shifted (left.size - 1)).absorb left with initial := left.initial }

/-- A new first and a new last state, with edges to repeat the automaton and to pass it by. -/
def star (inner : Nfa) : Nfa :=
  let a := inner.shifted 1
  let first := a.initial
  let finish := a.accepting
  let last := a.size
  let a := (a.addState.addEdge finish first .epsilon).addEdge 0 first .epsilon
  let a := (a.addEdge finish last .epsilon).addEdge 0 last .epsilon
  { a with initial := 0, accepting := last }

/-- The automaton of a pattern. -/
def ofPattern : Pattern → Nfa
  | .empty => basic .epsilon
  | .event t => basic (.event t)
  | .alt l r => alternation (ofPattern l) (ofPattern r)
  | .seq l r => concatenation (ofPattern l) (ofPattern r)
  | .star p => star (ofPattern p)
  | .maybe p => alternation (basic .epsilon) (ofPattern p)

/-- All edges, in the order of the states they leave. -/
def transitions (a : Nfa) : List Transition :=
  a.edges.toList.flatMap fun (s, outs) => outs.map fun (t, l) => ⟨s, t, l⟩

/-- The edges that leave a state. -/
def outgoing (a : Nfa) (state : Nat) : List (Nat × Label) := (a.edges.get? state).getD []

/-- Whether every edge joins states of the automaton, and the first and the last state are states
of it. -/
def isWellFormed (a : Nfa) : Bool :=
  a.initial < a.size && a.accepting < a.size &&
    a.transitions.all fun t => t.source < a.size && t.target < a.size

/-- The states that edges without an event lead to from one state. -/
def epsilonTargets (a : Nfa) (state : Nat) : List Nat :=
  (a.outgoing state).filterMap fun (t, l) => if l.isEpsilon then some t else none

/-- Notes a state and leaves it to be visited, unless it is known. -/
def discover (found : SortedSet Nat × List Nat) (state : Nat) : SortedSet Nat × List Nat :=
  if found.1.contains state then found else (found.1.insert state, state :: found.2)

/-- Visits the states still to be visited and all that are discovered on the way. -/
def closeFrom (a : Nfa) : Nat → SortedSet Nat × List Nat → SortedSet Nat
  | 0, (closed, _) => closed
  | _, (closed, []) => closed
  | fuel + 1, (closed, s :: pending) =>
    closeFrom a fuel ((a.epsilonTargets s).foldl discover (closed, pending))

/-- The states that can be reached from `states` without an event. Each visit but the first ones
is owed to an edge, so there are no more visits than states given and edges. -/
def epsilonClosure (a : Nfa) (states : SortedSet Nat) : SortedSet Nat :=
  a.closeFrom (states.size + a.transitions.length + 1) (states, states.toList)

/-- The states before the first event. -/
def startStates (a : Nfa) : SortedSet Nat := a.epsilonClosure (.ofList [a.initial])

/-- The states that edges with a suitable label lead to. -/
def targets (a : Nfa) (suits : EventTerm → Bool) (states : SortedSet Nat) : SortedSet Nat :=
  .ofList (states.toList.flatMap fun s => (a.outgoing s).filterMap fun (t, l) =>
    if l.term?.any suits then some t else none)

/-- The states after an event. -/
def step (a : Nfa) (states : SortedSet Nat) (e : Event) : SortedSet Nat :=
  a.epsilonClosure (a.targets (·.accepts e) states)

/-- The states at the ends of the edges labelled with exactly this term. -/
def moveOn (a : Nfa) (states : SortedSet Nat) (symbol : EventTerm) : SortedSet Nat :=
  a.targets (· == symbol) states

/-- The terms on the edges. -/
def inputSymbols (a : Nfa) : SortedSet EventTerm :=
  .ofList (a.transitions.filterMap (·.label.term?))

/-- The names of the terms on the edges. -/
def interestingEvents (a : Nfa) : InterestingEvents :=
  .ofList (a.inputSymbols.toList.map (·.name))

/-- A listing of the automaton, an edge a line. -/
def text (a : Nfa) : String :=
  let edges := a.transitions.map fun t => s!"  {t.source} --{t.label.text}--> {t.target}\n"
  s!"NFA: {a.size} states, initial {a.initial}, final {a.accepting}\n" ++ String.join edges

end Nfa

end Interleaving
