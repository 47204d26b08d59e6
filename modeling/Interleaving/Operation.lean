import Interleaving.Clock

/-!
# Operations

The next steps of the actors, as a scheduler sees them.
-/

namespace Interleaving

/-- The number by which an operation is known. Each actor keeps one, so it names that actor's next
step at every scheduling point. -/
abbrev OperationId := UInt64

/-- What an operation is going to do. -/
inductive OperationKind where
  | start
  | send
  | receive
  | stop
  | injectFailure
  | timer
  | yield
deriving DecidableEq

/-- The name of a kind. -/
def OperationKind.text : OperationKind → String
  | start => "Start"
  | send => "Send"
  | receive => "Receive"
  | stop => "Stop"
  | injectFailure => "InjectFailure"
  | timer => "Timer"
  | yield => "Yield"

/-- All kinds. -/
def OperationKind.all : List OperationKind :=
  [start, send, receive, stop, injectFailure, timer, yield]

/-- The kind of a name. -/
def OperationKind.ofText? (name : String) : Option OperationKind := all.find? (·.text == name)

/-- Whether an operation can be scheduled. -/
inductive OperationStatus where
  | enabled
  | disabled
  | completed
deriving DecidableEq

/-- The name of a status. -/
def OperationStatus.text : OperationStatus → String
  | enabled => "Enabled"
  | disabled => "Disabled"
  | completed => "Completed"

/-- All statuses. -/
def OperationStatus.all : List OperationStatus := [enabled, disabled, completed]

/-- The status of a name. -/
def OperationStatus.ofText? (name : String) : Option OperationStatus := all.find? (·.text == name)

/-- What a send is about to deliver: to whom, from which place of the program, and which event. -/
structure SendInfo where
  receiver : String
  location : UInt32
  event : String
deriving DecidableEq

/-- Where a send comes from and goes to. -/
structure SendSite where
  sender : String
  receiver : String
  location : UInt32
deriving DecidableEq

namespace SendSite

/-- Sites are ordered by sender, receiver and location. -/
instance : Ord SendSite :=
  ⟨compareLex (compareOn sender) (compareLex (compareOn receiver) (compareOn location))⟩

instance : Std.TransOrd SendSite :=
  inferInstanceAs (Std.TransCmp (compareLex (compareOn sender)
    (compareLex (compareOn receiver) (compareOn location))))

instance : Std.LawfulEqOrd SendSite where
  eq_of_compare {a b} h := by
    have h : (compare a.sender b.sender).then ((compare a.receiver b.receiver).then
        (compare a.location b.location)) = .eq := h
    simp only [Ordering.then_eq_eq, Std.LawfulEqOrd.compare_eq_iff_eq] at h
    cases a; cases b; simp_all

/-- The text of a site. -/
def text (s : SendSite) : String := s!"{s.sender} -> {s.receiver} @{s.location}"

end SendSite

/-- The next step of an actor. -/
structure Operation where
  id : OperationId
  actor : String
  kind : OperationKind
  status : OperationStatus
  /-- The actor's clock when the operation is offered. -/
  clock : VectorClock
  send : Option SendInfo
deriving DecidableEq

namespace Operation

/-- The first step of an actor, ready to run. -/
def ofActor (id : OperationId) (actor : String) : Operation :=
  ⟨id, actor, .start, .enabled, .empty, none⟩

/-- Makes an operation a send. -/
def sending (op : Operation) (receiver : String) (location : UInt32) (event : String) : Operation :=
  { op with kind := .send, send := some ⟨receiver, location, event⟩ }

/-- Whether an operation can run. -/
def isEnabled (op : Operation) : Bool := op.status == .enabled

/-- Whether an operation is a send. -/
def isSend (op : Operation) : Bool := op.kind == .send

/-- The event kind that a send delivers. -/
def sentEvent? (op : Operation) : Option String :=
  if op.isSend then op.send.map (·.event) else none

/-- The site of a send. -/
def sendSite? (op : Operation) : Option SendSite :=
  if op.isSend then op.send.map fun s => ⟨op.actor, s.receiver, s.location⟩ else none

/-- The operations that can run, in the order given. -/
def enabledAmong (ops : List Operation) : List Operation := ops.filter isEnabled

end Operation

end Interleaving
