import Interleaving.Pattern.Nfa

/-!
# Subset construction

Deterministic automata whose states stand for sets of states of an automaton with empty moves. The
empty set is no state: where no edge leads on, a sequence of terms is rejected.
-/

namespace Interleaving

/-- A state of a deterministic automaton. -/
structure DfaState where
  /-- The states it stands for. -/
  members : SortedSet Nat
  /-- Whether a sequence may end here. -/
  accepting : Bool
  /-- Where each term leads. -/
  next : SortedMap EventTerm Nat

/-- A deterministic automaton over event terms; its first state is the initial one. -/
structure Dfa where
  states : Array DfaState

namespace Dfa

/-- The number of the state that stands for a set. -/
def find? (d : Dfa) (members : SortedSet Nat) : Option Nat :=
  d.states.findIdx? (·.members == members)

/-- Adds a state for a set. -/
def add (d : Dfa) (a : Nfa) (members : SortedSet Nat) : Dfa :=
  ⟨d.states.push ⟨members, members.contains a.accepting, .empty⟩⟩

/-- Records that a term leads from one state to another. -/
def link (d : Dfa) (source : Nat) (symbol : EventTerm) (target : Nat) : Dfa :=
  ⟨d.states.modify source fun s => { s with next := s.next.insert symbol target }⟩

/-- Follows one term from the state `id`. A set met for the first time becomes a state that is
still to be expanded. -/
def follow (a : Nfa) (id : Nat) (found : Dfa × List Nat) (symbol : EventTerm) : Dfa × List Nat :=
  let (d, pending) := found
  let moved := a.moveOn ((d.states[id]?).elim .empty (·.members)) symbol
  if moved.isEmpty then found
  else
    let members := a.epsilonClosure moved
    match d.find? members with
    | some target => (d.link id symbol target, pending)
    | none => ((d.add a members).link id symbol d.states.size, d.states.size :: pending)

/-- Expands the states that are still to be expanded, the latest first. -/
def expand (a : Nfa) (symbols : List EventTerm) : Nat → Dfa × List Nat → Dfa
  | 0, (d, _) => d
  | _, (d, []) => d
  | fuel + 1, (d, id :: pending) => expand a symbols fuel (symbols.foldl (follow a id) (d, pending))

/-- The deterministic automaton of the sets that can be reached. There are fewer of them than
subsets of the states. -/
def ofNfa (a : Nfa) : Dfa :=
  expand a a.inputSymbols.toList (Nat.pow 2 a.size + 1) ((Dfa.mk #[]).add a a.startStates, [0])

/-- The number of states. -/
def size (d : Dfa) : Nat := d.states.size

/-- Whether a sequence may end in a state. -/
def isAccepting (d : Dfa) (state : Nat) : Bool := (d.states[state]?).any (·.accepting)

/-- The set that a state stands for. -/
def members? (d : Dfa) (state : Nat) : Option (SortedSet Nat) := (d.states[state]?).map (·.members)

/-- Where a term leads from a state. -/
def next? (d : Dfa) (state : Nat) (symbol : EventTerm) : Option Nat :=
  (d.states[state]?).bind (·.next.get? symbol)

/-- Whether a sequence of terms leads from a state to one where it may end. -/
def acceptsFrom (d : Dfa) (state : Nat) : List EventTerm → Bool
  | [] => d.isAccepting state
  | t :: ts =>
    match d.next? state t with
    | some next => d.acceptsFrom next ts
    | none => false

/-- Whether a sequence of terms is accepted. -/
def accepts (d : Dfa) (ts : List EventTerm) : Bool := d.acceptsFrom 0 ts

/-- A listing of the automaton: each state, the set it stands for, and where its terms lead. -/
def text (d : Dfa) : String :=
  let states := d.states.toList.zipIdx.map fun (s, id) =>
    let members := "\x7b" ++ ", ".intercalate (s.members.toList.map toString) ++ "\x7d"
    let final := if s.accepting then " (final)" else ""
    s!"  state {id} = {members}{final}\n" ++ String.join (s.next.toList.map fun (t, target) =>
      s!"    --{t.text}--> {target}\n")
  s!"DFA: {d.size} states, initial 0\n" ++ String.join states

end Dfa

end Interleaving
