import Interleaving.Program.Action

/-!
# Clients racing for a register

A program with a bug. One server holds a register. Each client writes a value of its own, waits for
the server to acknowledge it, reads the register, and complains if it does not hold that value. It
does not if another client's write comes in between.
-/

namespace Interleaving.RegisterRace

/-- The number of an actor: the server has `0`, and client `i` has `i + 1`. -/
abbrev ActorId := Nat

/-- The server's number. -/
def server : ActorId := 0

/-- The name of an actor. -/
def actorName : ActorId → String
  | 0 => "server"
  | i + 1 => s!"client{i}"

/-- What a message is about. -/
inductive MessageKind where
  /-- A client sets the register. -/
  | write
  /-- The register was set. -/
  | ack
  /-- A client asks for the register. -/
  | read
  /-- The register's value. -/
  | value
deriving DecidableEq

namespace MessageKind

/-- The event kind of a message. -/
def text : MessageKind → String
  | write => "Write"
  | ack => "Ack"
  | read => "Read"
  | value => "Value"

/-- The place in the program from which a message is sent. -/
def location : MessageKind → UInt32
  | write => 1
  | read => 2
  | ack => 10
  | value => 11

end MessageKind

/-- A message in an inbox, with its sender's clock. -/
structure Message where
  kind : MessageKind
  sender : ActorId
  value : UInt64
  clock : VectorClock
deriving DecidableEq

/-- The message as an event. -/
def Message.event (m : Message) : Event :=
  ⟨m.kind.text, .ofList [("from", actorName m.sender), ("value", toString m.value)]⟩

/-- A message that is still to be sent. -/
structure Outgoing where
  receiver : ActorId
  kind : MessageKind
  value : UInt64
deriving DecidableEq

/-- What an actor is and what it remembers. -/
inductive Role where
  | server (register : UInt64)
  | client (written : Option UInt64) (done : Bool)
deriving DecidableEq

/-- Whether an actor needs no further message. -/
def Role.isFinished : Role → Bool
  | server _ => true
  | client _ done => done

/-- An actor with its mailboxes. -/
structure Actor where
  role : Role
  clock : VectorClock
  started : Bool
  inbox : List Message
  outbox : List Outgoing
deriving DecidableEq

namespace Actor

/-- An actor that has done nothing yet. -/
def ofRole (role : Role) : Actor := ⟨role, .empty, false, [], []⟩

/-- What an actor is going to do: send what is in its outbox, start, or take a message. -/
def operation (id : ActorId) (a : Actor) : Operation :=
  let op := { Operation.ofActor (.ofNat id) (actorName id) with clock := a.clock }
  match a.outbox with
  | out :: _ => op.sending (actorName out.receiver) out.kind.location out.kind.text
  | [] =>
    if !a.started then op
    else if !a.inbox.isEmpty then { op with kind := .receive }
    else
      { op with
        kind := .receive
        status := if a.role.isFinished then .completed else .disabled }

/-- Puts a message into the outbox. -/
def post (a : Actor) (out : Outgoing) : Actor := { a with outbox := a.outbox ++ [out] }

/-- Counts a step of the actor with the number `id`. -/
def tick (id : ActorId) (a : Actor) : Actor := { a with clock := a.clock.increment (actorName id) }

/-- What a message makes of an actor, and the complaint if the actor has one. -/
def onMessage (id : ActorId) (a : Actor) (m : Message) : Actor × Option String :=
  match a.role, m.kind with
  | .server _, .write =>
    (({ a with role := .server m.value }).post ⟨m.sender, .ack, m.value⟩, none)
  | .server register, .read => (a.post ⟨m.sender, .value, register⟩, none)
  | .client .., .ack => (a.post ⟨server, .read, 0⟩, none)
  | .client written _, .value =>
    ({ a with role := .client written true },
      if written = some m.value then none
      else some s!"{actorName id} read {m.value} after writing {written.getD 0}")
  | _, _ => (a, none)

end Actor

/-- The actors, each at the place of its number. -/
abbrev State := List Actor

/-- The server and some clients before their first steps. -/
def start (clients : Nat) : State :=
  .ofRole (.server 0) :: List.replicate clients (.ofRole (.client none false))

/-- Sends the first message of the outbox. -/
def sendNext (s : State) (id : ActorId) (a : Actor) (out : Outgoing) (outbox : List Outgoing) :
    Action State :=
  let a := { a with outbox }.tick id
  let message : Message := ⟨out.kind, id, out.value, a.clock⟩
  let sent := s.set id a
  .send (actorName id) out.kind.location (actorName out.receiver) a.clock <|
    if out.receiver < s.length then
      .done (sent.modify out.receiver fun r => { r with inbox := r.inbox ++ [message] })
    else .fail sent (.unknownActor (actorName out.receiver))

/-- The first step of an actor. A client chooses what to write. -/
def startActor (s : State) (id : ActorId) (a : Actor) : Action State :=
  let a := { a with started := true }.tick id
  match a.role with
  | .server _ => .done (s.set id a)
  | .client _ done =>
    .chooseInt 10 (s.set id a) fun n =>
      let value := UInt64.ofNat id * 100 + n
      .done (s.set id (({ a with role := .client (some value) done }).post
        ⟨server, .write, value⟩))

/-- Takes the first message of the inbox. -/
def receiveNext (s : State) (id : ActorId) (a : Actor) (m : Message) (inbox : List Message) :
    Action State :=
  let a := { a with inbox, clock := a.clock.merge m.clock }.tick id
  let (a, complaint) := a.onMessage id m
  .dequeue (actorName id) m.event <|
    match complaint with
    | some text => .report text (.done (s.set id a))
    | none => .done (s.set id a)

/-- Runs the next step of an actor. -/
def execute (s : State) (id : OperationId) : Action State :=
  match s[id.toNat]? with
  | none => .fail s (.unknownOperation id)
  | some a =>
    match a.outbox with
    | out :: outbox => sendNext s id.toNat a out outbox
    | [] =>
      if !a.started then startActor s id.toNat a
      else
        match a.inbox with
        | m :: inbox => receiveNext s id.toNat a m inbox
        | [] => .fail s (.notRunnable id)

/-- The program with a number of clients, at least one. -/
def program (clients : Nat) : Program State where
  name := "register-race"
  initial := start (max clients 1)
  operations s := s.mapIdx Actor.operation
  execute := execute

end Interleaving.RegisterRace
