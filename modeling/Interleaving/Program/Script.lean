import Interleaving.Program.Action

/-!
# Programs given as scripts

Actors each of which does one step of a list after the other. A jump may make it go on forever.
-/

namespace Interleaving.Script

/-- A step of an actor. -/
inductive Step where
  /-- Sends an event to the first actor of a name. -/
  | send (receiver : String) (location : UInt32) (event : Event)
  /-- Takes an event from the inbox, and complains if it is not of the kind that is expected. -/
  | receive (expected : Option String)
  /-- Asks for a truth value, and complains if it is true. -/
  | chooseBool (maxValue : UInt64) (complaint : Option String)
  /-- Asks for a number, and complains if it is `bad`. -/
  | chooseInt (maxValue : UInt64) (bad : Option UInt64) (complaint : String)
  /-- Reports bugs. -/
  | report (messages : List String)
  /-- Fails. -/
  | fail (message : String)
  /-- Reports what the program sees of its run. -/
  | probe
  /-- Goes on with the step of a number. -/
  | jump (position : Nat)
  /-- Does nothing. -/
  | skip
deriving DecidableEq

/-- An actor and the place that it has reached. -/
structure Actor where
  name : String
  steps : Array Step
  position : Nat
  clock : VectorClock
  /-- The events sent to the actor, with the clocks of their senders. -/
  inbox : List (Event × VectorClock)
deriving DecidableEq

namespace Actor

/-- An actor at its first step. -/
def ofSteps (name : String) (steps : List Step) : Actor := ⟨name, steps.toArray, 0, .empty, []⟩

/-- The step that an actor is at; none if it has done them all. -/
def step? (a : Actor) : Option Step := a.steps[a.position]?

/-- What an actor is going to do. -/
def operation (id : Nat) (a : Actor) : Operation :=
  let op := { Operation.ofActor (.ofNat id) a.name with clock := a.clock }
  match a.step? with
  | none => { op with kind := .stop, status := .completed }
  | some (.send receiver location event) => op.sending receiver location event.kind
  | some (.receive _) =>
    { op with kind := .receive, status := if a.inbox.isEmpty then .disabled else .enabled }
  | some _ => { op with kind := .yield }

/-- Counts a step. -/
def tick (a : Actor) : Actor := { a with clock := a.clock.increment a.name }

end Actor

/-- The actors, each at the place of its number. -/
abbrev State := List Actor

/-- Reports some bugs before going on. -/
def reportAll (messages : List String) (next : Action State) : Action State :=
  messages.foldr .report next

/-- Does a step of the actor with the number `id`, which has already gone on to the next. -/
def perform (s : State) (id : Nat) (a : Actor) : Step → Action State
  | .send receiver location event =>
    let a := a.tick
    let sent := s.set id a
    .send a.name location receiver a.clock <|
      match sent.findIdx? (·.name == receiver) with
      | some target =>
        .done (sent.modify target fun r => { r with inbox := r.inbox ++ [(event, a.clock)] })
      | none => .fail sent (.unknownActor receiver)
  | .receive expected =>
    match a.inbox with
    | [] => .fail (s.set id a) (.notRunnable (.ofNat id))
    | (event, clock) :: inbox =>
      let a := { a with inbox, clock := a.clock.merge clock }.tick
      .dequeue a.name event <|
        match expected with
        | some kind =>
          if kind = event.kind then .done (s.set id a)
          else .report s!"{a.name} got {event.kind}" (.done (s.set id a))
        | none => .done (s.set id a)
  | .chooseBool maxValue complaint =>
    let s := s.set id a.tick
    .chooseBool maxValue s fun b => reportAll (if b then complaint.toList else []) (.done s)
  | .chooseInt maxValue bad complaint =>
    let s := s.set id a.tick
    .chooseInt maxValue s fun n => reportAll (if bad = some n then [complaint] else []) (.done s)
  | .report messages => reportAll messages (.done (s.set id a))
  | .fail message => .fail (s.set id a) (.invariant message)
  | .probe =>
    .inspect fun current races =>
      .report s!"current {current} conflicts {races}" (.done (s.set id a))
  | .jump position => .done (s.set id { a with position })
  | .skip => .done (s.set id a)

/-- Does the next step of an actor. -/
def execute (s : State) (id : OperationId) : Action State :=
  match s[id.toNat]? with
  | none => .fail s (.unknownOperation id)
  | some a =>
    match a.step? with
    | none => .fail s (.notRunnable id)
    | some step => perform s id.toNat { a with position := a.position + 1 } step

/-- The program of some actors, given by their names and steps. -/
def program (actors : List (String × List Step)) : Program State where
  name := "script"
  initial := actors.map fun (name, steps) => .ofSteps name steps
  operations s := s.mapIdx Actor.operation
  execute := execute

end Interleaving.Script
