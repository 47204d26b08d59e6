import Mathlib
import Interleaving.Program.RegisterRace
import Interleaving.Proofs.Program.Causality

/-!
# Steps of the register race

A step of an actor sends a message, takes one, or is the actor's first (`Stepped`). No actor has more
than four steps for each client and one more (`Kept.steps_le`): so many steps are owed to a message by
the two actors that it goes between, and each step pays one of those that its actor owes.
-/

namespace Interleaving.RegisterRace

open LoggedStep

variable {clients : Nat} {s s' : State} {i j x : ActorId} {a : Actor} {notices : List Notice}

lemma actorName_injective {i j : ActorId} (e : actorName i = actorName j) : i = j := by
  have named : ∀ i : Nat, (actorName (i + 1)).toList = "client".toList ++ i.repr.toList := by
    intro i
    simp [actorName, toString]
  have other : ∀ i : Nat, actorName 0 ≠ actorName (i + 1) := by
    intro i e
    have e := congrArg (·.toList.head?) e
    simp [actorName, toString] at e
  cases i with
  | zero =>
    cases j with
    | zero => rfl
    | succ j => exact absurd e (other j)
  | succ i =>
    cases j with
    | zero => exact absurd e.symm (other i)
    | succ j =>
      have e := congrArg String.toList e
      rw [named, named] at e
      exact congrArg _ (Nat.repr_inj.mp (String.toList_injective (List.append_cancel_left e)))

namespace Actor

@[simp] lemma operation_actor : (operation i a).actor = actorName i := by
  unfold operation
  split <;> [rfl; split <;> [rfl; split <;> rfl]]

@[simp] lemma operation_id : (operation i a).id = .ofNat i := by
  unfold operation
  split <;> [rfl; split <;> [rfl; split <;> rfl]]

end Actor

/-- What a step of the actor `i` in the state `a` can be. -/
inductive Stepped (s : State) (i : ActorId) (a : Actor) : List Notice → State → Prop where
  | send {out : Outgoing} {outbox : List Outgoing} :
    a.outbox = out :: outbox →
    Stepped s i a
      [.sent (actorName i) out.kind.location (actorName out.receiver)
        (a.clock.increment (actorName i))]
      ((s.set i ({ a with outbox }.tick i)).modify out.receiver fun r =>
        { r with inbox := r.inbox ++ [⟨out.kind, i, out.value, a.clock.increment (actorName i)⟩] })
  | startServer {register : UInt64} :
    a.started = false →
    a.role = .server register →
    Stepped s i a [] (s.set i ({ a with started := true }.tick i))
  | startClient {written : Option UInt64} {done : Bool} {value : UInt64} :
    a.started = false →
    a.role = .client written done →
    Stepped s i a [] (s.set i
      (({ { a with started := true }.tick i with role := .client (some value) done }).post
        ⟨server, .write, value⟩))
  | take {m : Message} {inbox : List Message} {complaint : List Notice} :
    a.inbox = m :: inbox →
    (∀ notice ∈ complaint, ∃ message, notice = .bug message) →
    Stepped s i a (.taken (actorName i) m.event :: complaint) (s.set i
      (({ a with inbox, clock := a.clock.merge m.clock }.tick i).onMessage i m).1)

section Requests

variable {id : OperationId}

lemma stepped_of_sendNext {out : Outgoing} {outbox : List Outgoing} (full : a.outbox = out :: outbox)
    (tells : (sendNext s i a out outbox).Tells id notices s') : Stepped s i a notices s' := by
  cases tells with
  | send rest =>
    split at rest
    · cases rest
      exact .send full
    · cases rest

lemma stepped_of_startActor (fresh : a.started = false)
    (tells : (startActor s i a).Tells id notices s') : Stepped s i a notices s' := by
  obtain ⟨role, clock, started, inbox, outbox⟩ := a
  cases role with
  | server register =>
    cases tells
    exact .startServer fresh rfl
  | client written done =>
    cases tells with
    | chooseInt answered =>
      cases answered
      exact .startClient fresh rfl

lemma stepped_of_receiveNext {m : Message} {inbox : List Message} (full : a.inbox = m :: inbox)
    (tells : (receiveNext s i a m inbox).Tells id notices s') : Stepped s i a notices s' := by
  cases tells with
  | dequeue rest =>
    split at rest
    · cases rest with
      | report done =>
        cases done
        exact .take full fun notice h => ⟨_, List.mem_singleton.mp h⟩
    · cases rest
      exact .take full fun notice h => absurd h List.not_mem_nil

end Requests

lemma stepped_of_tells {op : Operation} (small : s.length ≤ 2 ^ 64)
    (mem : op ∈ s.mapIdx Actor.operation) (tells : (execute s op.id).Tells op.id notices s') :
    ∃ i a, s[i]? = some a ∧ op.actor = actorName i ∧ Stepped s i a notices s' := by
  obtain ⟨i, lt, rfl⟩ := List.mem_mapIdx.mp mem
  refine ⟨i, s[i], List.getElem?_eq_getElem lt, Actor.operation_actor, ?_⟩
  have id : (UInt64.ofNat i).toNat = i := UInt64.toNat_ofNat_of_lt' (lt.trans_le small)
  rw [Actor.operation_id, execute, id, List.getElem?_eq_getElem lt] at tells
  generalize s[i] = a at tells ⊢
  simp only at tells
  split at tells
  · next full => exact stepped_of_sendNext full tells
  · split at tells
    · next fresh => exact stepped_of_startActor (by simpa using fresh) tells
    · split at tells
      · next full => exact stepped_of_receiveNext full tells
      · cases tells

lemma countP_eq_zero_of_bugs {p : Notice → Bool}
    (bugs : ∀ notice ∈ notices, ∃ message, notice = .bug message)
    (other : ∀ message, p (.bug message) = false) : notices.countP p = 0 := by
  refine List.countP_eq_zero.mpr fun notice mem => ?_
  obtain ⟨message, rfl⟩ := bugs notice mem
  rw [other]
  exact Bool.false_ne_true

/-- Something is true of each actor. -/
def Each (P : ActorId → Actor → Prop) (s : State) : Prop := ∀ i a, s[i]? = some a → P i a

section Updates

variable {P : ActorId → Actor → Prop} {b : Actor} {f : Actor → Actor}

lemma getElem?_set_cases (h : (s.set i a)[j]? = some b) :
    j = i ∧ b = a ∨ j ≠ i ∧ s[j]? = some b := by
  rw [List.getElem?_set] at h
  split_ifs at h with e lt
  · cases h
    exact .inl ⟨e.symm, rfl⟩
  · exact .inr ⟨fun h => e h.symm, h⟩

lemma Each.set (h : Each P s) (new : P i b) : Each P (s.set i b) := by
  intro j c get
  rw [List.getElem?_set] at get
  split at get
  · next e =>
    split at get
    · cases get
      exact e ▸ new
    · cases get
  · exact h j c get

lemma Each.modify (h : Each P s) (new : ∀ b, P i b → P i (f b)) : Each P (s.modify i f) := by
  intro j c get
  rw [List.getElem?_modify] at get
  obtain ⟨b, get', rfl⟩ := Option.map_eq_some_iff.mp get
  have old := h j b get'
  split
  · next e => exact e ▸ new b (e ▸ old)
  · exact old

end Updates

/-- How much is still to come: for the first step of an actor, and for a message that is to be sent or
that waits to be taken, each of which goes from one actor to another. -/
structure Weight where
  first : ActorId → Role → Nat
  unsent : MessageKind → ActorId → ActorId → Nat
  untaken : MessageKind → ActorId → ActorId → Nat

section Weights

variable {w : Weight}

/-- The weight of all that is with the actor `i`. -/
def Actor.weight (w : Weight) (i : ActorId) (a : Actor) : Nat :=
  (bif a.started then 0 else w.first i a.role) +
    (a.outbox.map fun out => w.unsent out.kind i out.receiver).sum +
    (a.inbox.map fun m => w.untaken m.kind m.sender i).sum

/-- The weight of a state. -/
def weight (w : Weight) (s : State) : Nat := (s.mapIdx (Actor.weight w)).sum

namespace Actor

lemma weight_post {out : Outgoing} :
    (a.post out).weight w i = a.weight w i + w.unsent out.kind i out.receiver := by
  simp only [weight, post, List.map_append, List.sum_append, List.map_singleton, List.sum_singleton]
  omega

lemma weight_of_outbox {out : Outgoing} {outbox : List Outgoing} (full : a.outbox = out :: outbox) :
    a.weight w i =
      ({ a with outbox }.tick i).weight w i + w.unsent out.kind i out.receiver := by
  simp only [weight, tick, full, List.map_cons, List.sum_cons]
  omega

lemma weight_of_inbox {m : Message} {inbox : List Message} (clock : VectorClock)
    (full : a.inbox = m :: inbox) :
    a.weight w i =
      ({ a with inbox, clock }.tick i).weight w i + w.untaken m.kind m.sender i := by
  simp only [weight, tick, full, List.map_cons, List.sum_cons]
  omega

lemma weight_deliver {m : Message} : ({ a with inbox := a.inbox ++ [m] } : Actor).weight w i =
    a.weight w i + w.untaken m.kind m.sender i := by
  simp only [weight, List.map_append, List.sum_append, List.map_singleton, List.sum_singleton]
  omega

end Actor

lemma sum_set_add {ns : List Nat} {m n : Nat} (get : ns[i]? = some m) :
    (ns.set i n).sum + m = ns.sum + n := by
  induction ns generalizing i with
  | nil => cases get
  | cons k ns ih =>
    cases i with
    | zero =>
      cases get
      rw [List.set_cons_zero, List.sum_cons, List.sum_cons]
      omega
    | succ i =>
      have := ih (i := i) get
      rw [List.set_cons_succ, List.sum_cons, List.sum_cons]
      omega

lemma weight_set {b : Actor} (get : s[i]? = some a) :
    weight w (s.set i b) + a.weight w i = weight w s + b.weight w i := by
  rw [weight, List.mapIdx_set]
  exact sum_set_add (by rw [List.getElem?_mapIdx, get, Option.map_some])

/-- A message for an actor that does not exist has no weight. -/
lemma weight_deliver (receiver : ActorId) (m : Message) :
    weight w (s.modify receiver fun r => { r with inbox := r.inbox ++ [m] }) =
      weight w s + if receiver < s.length then w.untaken m.kind m.sender receiver else 0 := by
  rw [List.modify_eq_set_getElem?]
  cases get : s[receiver]? with
  | none =>
    rw [if_neg (Nat.not_lt.mpr (List.getElem?_eq_none_iff.mp get))]
    rfl
  | some r =>
    have set := weight_set (w := w) (b := { r with inbox := r.inbox ++ [m] }) get
    rw [Actor.weight_deliver] at set
    rw [if_pos (List.getElem?_eq_some_iff.mp get).1]
    show weight w (s.set receiver { r with inbox := r.inbox ++ [m] }) = _
    omega

end Weights

section Budget

/-- The steps that each of two actors has to take for a message, up to the last answer: the one from
sending it on, and the other from taking it on. -/
def MessageKind.ahead : MessageKind → Nat
  | write => 4
  | ack => 3
  | read => 2
  | value => 1

/-- The steps that the actor `x` owes to a message in the outbox of `i`. -/
def Outgoing.owed (x i : ActorId) (out : Outgoing) : Nat :=
  if x = i ∨ x = out.receiver then out.kind.ahead else 0

/-- The steps that the actor `x` owes to a message in the inbox of `i`. -/
def Message.owed (x i : ActorId) (m : Message) : Nat :=
  if x = i then m.kind.ahead else if x = m.sender then m.kind.ahead - 1 else 0

/-- The steps that the actor `x` owes to the first step of `i`. -/
def Role.owed (x i : ActorId) : Role → Nat
  | .server _ => if x = i then 1 else 0
  | .client .. => if x = i then 5 else if x = RegisterRace.server then 4 else 0

/-- The steps that the actor `x` owes to all that is with `i`. -/
def Actor.owed (x i : ActorId) (a : Actor) : Nat :=
  (bif a.started then 0 else a.role.owed x i) + (a.outbox.map (Outgoing.owed x i)).sum +
    (a.inbox.map (Message.owed x i)).sum

/-- The steps that the actor `x` has at most before it. -/
def owed (x : ActorId) (s : State) : Nat := (s.mapIdx (Actor.owed x)).sum

/-- The steps that the actor `x` owes as a weight. -/
def owing (x : ActorId) : Weight where
  first i role := role.owed x i
  unsent kind sender receiver := if x = sender ∨ x = receiver then kind.ahead else 0
  untaken kind sender receiver :=
    if x = receiver then kind.ahead else if x = sender then kind.ahead - 1 else 0

/-- Whether it is the server's role. -/
def Role.IsServer (role : Role) : Prop := ∃ register, role = .server register

/-- The server and the clients only write to each other, and only the server acknowledges. -/
structure Actor.Fits (i : ActorId) (a : Actor) : Prop where
  role : a.role.IsServer ↔ i = server
  outbox : ∀ out ∈ a.outbox, out.receiver ≠ i ∧ (out.kind = .ack → i = server)
  inbox : ∀ m ∈ a.inbox, m.sender ≠ i ∧ (m.kind = .ack → m.sender = server)

/-- An answer goes back to the sender, and to the server if it sets off the next request. There is one
step less to come. -/
structure Outgoing.Answers (out : Outgoing) (a : Actor) (m : Message) : Prop where
  receiver : out.receiver = if m.kind = .ack then server else m.sender
  ahead : out.kind.ahead + 1 = m.kind.ahead
  acks : out.kind = .ack → a.role.IsServer

namespace Actor

lemma not_isServer {written : Option UInt64} {done : Bool} :
    ¬ (Role.client written done).IsServer := by
  rintro ⟨register, e⟩
  cases e

/-- A message makes an actor remember something and post an answer, if there is one. -/
lemma onMessage_eq (i : ActorId) (a : Actor) (m : Message) :
    ∃ role answer, (a.onMessage i m).1 = { a with role, outbox := a.outbox ++ answer } ∧
      (role.IsServer ↔ a.role.IsServer) ∧
      (answer = [] ∨ ∃ out, answer = [out] ∧ out.Answers a m) := by
  obtain ⟨kind, sender, value, clock⟩ := m
  obtain ⟨role, clock, started, inbox, outbox⟩ := a
  cases role with
  | server register =>
    cases kind with
    | write =>
      exact ⟨.server value, [⟨sender, .ack, value⟩], rfl, ⟨fun _ => ⟨_, rfl⟩, fun _ => ⟨_, rfl⟩⟩,
        .inr ⟨_, rfl, rfl, rfl, fun _ => ⟨_, rfl⟩⟩⟩
    | read =>
      exact ⟨.server register, [⟨sender, .value, register⟩], rfl, Iff.rfl,
        .inr ⟨_, rfl, rfl, rfl, fun e => by cases e⟩⟩
    | ack => exact ⟨.server register, [], by simp [onMessage], Iff.rfl, .inl rfl⟩
    | value => exact ⟨.server register, [], by simp [onMessage], Iff.rfl, .inl rfl⟩
  | client written done =>
    cases kind with
    | ack =>
      exact ⟨.client written done, [⟨server, .read, 0⟩], rfl, Iff.rfl,
        .inr ⟨_, rfl, rfl, rfl, fun e => by cases e⟩⟩
    | value =>
      exact ⟨.client written true, [], by simp [onMessage],
        ⟨fun h => absurd h not_isServer, fun h => absurd h not_isServer⟩, .inl rfl⟩
    | write => exact ⟨.client written done, [], by simp [onMessage], Iff.rfl, .inl rfl⟩
    | read => exact ⟨.client written done, [], by simp [onMessage], Iff.rfl, .inl rfl⟩

lemma owed_post {out : Outgoing} : (a.post out).owed x i = a.owed x i + out.owed x i :=
  weight_post (w := owing x)

lemma owed_of_outbox {out : Outgoing} {outbox : List Outgoing} (full : a.outbox = out :: outbox) :
    a.owed x i = ({ a with outbox }.tick i).owed x i + out.owed x i :=
  weight_of_outbox (w := owing x) full

lemma owed_of_inbox {m : Message} {inbox : List Message} (clock : VectorClock)
    (full : a.inbox = m :: inbox) :
    a.owed x i = ({ a with inbox, clock }.tick i).owed x i + m.owed x i :=
  weight_of_inbox (w := owing x) clock full

end Actor

lemma MessageKind.one_le_ahead (kind : MessageKind) : 1 ≤ kind.ahead := by cases kind <;> decide

lemma Role.owed_congr {role role' : Role} (same : role.IsServer ↔ role'.IsServer) :
    role.owed x i = role'.owed x i := by
  cases role with
  | server register =>
    obtain ⟨register', rfl⟩ := same.mp ⟨register, rfl⟩
    rfl
  | client written done =>
    cases role' with
    | server register' => exact absurd (same.mpr ⟨register', rfl⟩) Actor.not_isServer
    | client written' done' => rfl

/-- What is owed for a message pays for its being taken and for the answer. -/
lemma Actor.owed_onMessage {m : Message} (ack : m.kind = .ack → m.sender = server) :
    (a.onMessage i m).1.owed x i + (if x = i then 1 else 0) ≤ a.owed x i + m.owed x i := by
  obtain ⟨role, answer, e, same, answers⟩ := a.onMessage_eq i m
  have ahead := m.kind.one_le_ahead
  have after : (a.onMessage i m).1.owed x i = a.owed x i + (answer.map (Outgoing.owed x i)).sum := by
    rw [e]
    simp only [owed, List.map_append, List.sum_append, Role.owed_congr same]
    omega
  rw [after, Nat.add_assoc]
  refine Nat.add_le_add_left ?_ _
  rw [Message.owed]
  rcases answers with rfl | ⟨out, rfl, answers⟩
  · rw [List.map_nil, List.sum_nil]
    split_ifs <;> omega
  · have back : out.receiver = m.sender := by
      rw [answers.receiver]
      split_ifs with h
      · exact (ack h).symm
      · rfl
    have := answers.ahead
    rw [List.map_singleton, List.sum_singleton, Outgoing.owed, back]
    grind

lemma owed_set {b : Actor} (get : s[i]? = some a) :
    owed x (s.set i b) + a.owed x i = owed x s + b.owed x i := weight_set (w := owing x) get

lemma owed_deliver_le (x receiver : ActorId) (m : Message) :
    owed x (s.modify receiver fun r => { r with inbox := r.inbox ++ [m] }) ≤
      owed x s + m.owed x receiver := by
  refine (weight_deliver (w := owing x) receiver m).trans_le (Nat.add_le_add_left ?_ _)
  split
  · exact Nat.le_refl _
  · exact Nat.zero_le _

/-- A step is one of those that its actor owes. -/
lemma Stepped.pays (h : Stepped s i a notices s') (fits : a.Fits i) (get : s[i]? = some a) :
    owed x s' + (if x = i then 1 else 0) ≤ owed x s := by
  -- All but a send changes the one actor only.
  have alone : ∀ b : Actor, b.owed x i + (if x = i then 1 else 0) ≤ a.owed x i →
      owed x (s.set i b) + (if x = i then 1 else 0) ≤ owed x s := by
    intro b le
    have := owed_set (x := x) (b := b) get
    omega
  cases h with
  | @send out outbox full =>
    have other := (fits.outbox out (full ▸ List.mem_cons_self)).1
    have ahead := out.kind.one_le_ahead
    have rest := owed_set (x := x) (b := { a with outbox }.tick i) get
    rw [Actor.owed_of_outbox full] at rest
    have delivered := owed_deliver_le (s := s.set i ({ a with outbox }.tick i)) x out.receiver
      ⟨out.kind, i, out.value, a.clock.increment (actorName i)⟩
    have paid : Message.owed x out.receiver ⟨out.kind, i, out.value, a.clock.increment (actorName i)⟩ +
        (if x = i then 1 else 0) ≤ out.owed x i := by
      rw [Message.owed, Outgoing.owed]
      grind
    omega
  | @startServer register fresh role =>
    refine alone _ ?_
    simp only [Actor.owed, Actor.tick, fresh, role, Role.owed, cond_true, cond_false]
    omega
  | @startClient written done value fresh role =>
    have ne : i ≠ server := fun e => Actor.not_isServer (role ▸ fits.role.mpr e)
    refine alone _ ?_
    rw [Actor.owed_post]
    simp only [Actor.owed, Actor.tick, fresh, role, Role.owed, cond_true, cond_false, Outgoing.owed,
      MessageKind.ahead]
    grind
  | @take m inbox complaint full _ =>
    refine alone _ ?_
    rw [Actor.owed_of_inbox (a.clock.merge m.clock) full]
    exact Actor.owed_onMessage (fits.inbox m (full ▸ List.mem_cons_self)).2

/-- The answer to a message goes to another actor. -/
lemma Actor.Fits.onMessage (h : a.Fits i) {m : Message} (sender : m.sender ≠ i)
    (ack : m.kind = .ack → m.sender = server) : (a.onMessage i m).1.Fits i := by
  obtain ⟨role, answer, e, same, answers⟩ := a.onMessage_eq i m
  rw [e]
  refine ⟨same.trans h.role, fun out mem => ?_, h.inbox⟩
  rcases List.mem_append.mp mem with mem | mem
  · exact h.outbox out mem
  rcases answers with rfl | ⟨posted, rfl, answers⟩
  · cases mem
  obtain rfl := List.mem_singleton.mp mem
  refine ⟨?_, fun kind => h.role.mp (answers.acks kind)⟩
  rw [answers.receiver]
  split_ifs with kind
  · rwa [← ack kind]
  · exact sender

lemma Stepped.fits (h : Stepped s i a notices s') (fits : Each Actor.Fits s) (get : s[i]? = some a) :
    Each Actor.Fits s' := by
  have own := fits i a get
  cases h with
  | @send out outbox full =>
    have ⟨ne, acks⟩ := own.outbox out (full ▸ List.mem_cons_self)
    have rest : ({ a with outbox }.tick i).Fits i :=
      ⟨own.role, fun o mem => own.outbox o (full ▸ List.mem_cons_of_mem _ mem), own.inbox⟩
    refine (fits.set rest).modify fun r h => ⟨h.role, h.outbox, fun m mem => ?_⟩
    rcases List.mem_append.mp mem with mem | mem
    · exact h.inbox m mem
    · obtain rfl := List.mem_singleton.mp mem
      exact ⟨ne.symm, acks⟩
  | startServer fresh role => exact fits.set ⟨own.role, own.outbox, own.inbox⟩
  | startClient fresh role =>
    have ne : i ≠ server := fun e => Actor.not_isServer (role ▸ own.role.mpr e)
    refine fits.set ⟨⟨fun h => absurd h Actor.not_isServer, fun e => absurd e ne⟩, fun out mem => ?_,
      own.inbox⟩
    rcases List.mem_append.mp mem with mem | mem
    · exact own.outbox out mem
    · obtain rfl := List.mem_singleton.mp mem
      exact ⟨ne.symm, fun e => by cases e⟩
  | @take m inbox complaint full _ =>
    have ⟨sender, ack⟩ := own.inbox m (full ▸ List.mem_cons_self)
    have rest : ({ a with inbox, clock := a.clock.merge m.clock }.tick i).Fits i :=
      ⟨own.role, own.outbox, fun m' mem => own.inbox m' (full ▸ List.mem_cons_of_mem _ mem)⟩
    exact fits.set (rest.onMessage sender ack)

lemma Stepped.length (h : Stepped s i a notices s') : s'.length = s.length := by
  cases h <;> simp

lemma fits_start : Each Actor.Fits (start clients) := by
  intro i a get
  cases i with
  | zero =>
    cases get
    exact ⟨⟨fun _ => rfl, fun _ => ⟨0, rfl⟩⟩, fun _ h => absurd h List.not_mem_nil,
      fun _ h => absurd h List.not_mem_nil⟩
  | succ i =>
    rw [start, List.getElem?_cons_succ, List.getElem?_replicate] at get
    split_ifs at get
    cases get
    exact ⟨⟨fun h => absurd h Actor.not_isServer, fun h => absurd h (Nat.succ_ne_zero i)⟩,
      fun _ h => absurd h List.not_mem_nil, fun _ h => absurd h List.not_mem_nil⟩

/-- A client owes five steps to its own start, and the server owes four. -/
lemma owed_clients :
    ((List.replicate clients (Actor.ofRole (.client none false))).mapIdx
        fun i => Actor.owed x (i + 1)).sum =
      if x = server then 4 * clients else if x ≤ clients then 5 else 0 := by
  induction clients with
  | zero =>
    rw [List.replicate_zero, List.mapIdx_nil, List.sum_nil, server]
    grind
  | succ n ih =>
    rw [List.replicate_succ', List.mapIdx_concat, List.sum_append, List.sum_singleton, ih,
      List.length_replicate]
    have own : (Actor.ofRole (.client none false)).owed x (n + 1) =
      if x = n + 1 then 5 else if x = server then 4 else 0 := rfl
    rw [own, server]
    grind

/-- At the start, the server owes four steps to each client, and a client owes five to itself. -/
lemma owed_start_le (one : 1 ≤ clients) : owed x (start clients) ≤ 4 * clients + 1 := by
  rw [owed, start, List.mapIdx_cons, List.sum_cons, owed_clients]
  have first : (Actor.ofRole (.server 0)).owed x 0 = if x = 0 then 1 else 0 := rfl
  rw [first, server]
  split_ifs <;> omega

end Budget

/-- What is the same in all states of a run. The steps that an actor has taken and those that it owes
are together no more than those that it owes at the start. -/
structure Kept (clients : Nat) (log : List LoggedStep) (s : State) : Prop where
  length : s.length = max clients 1 + 1
  fits : Each Actor.Fits s
  budget : ∀ x, total (ofActor (actorName x)) log + owed x s ≤ owed x (start (max clients 1))

lemma kept_start : Kept clients [] (start (max clients 1)) :=
  ⟨by simp [start], fits_start, fun x => by rw [total, List.map_nil, List.sum_nil, Nat.zero_add]⟩

lemma Kept.concat {log : List LoggedStep} (K : Kept clients log s) (get : s[i]? = some a)
    (h : Stepped s i a notices s') : Kept clients (log ++ [⟨actorName i, notices⟩]) s' := by
  refine ⟨h.length.trans K.length, h.fits K.fits get, fun x => ?_⟩
  have budget := K.budget x
  have pays := h.pays (x := x) (K.fits i a get) get
  have own : ofActor (actorName x) ⟨actorName i, notices⟩ = if x = i then 1 else 0 := by
    rw [ofActor]
    refine if_congr ⟨fun e => (actorName_injective e).symm, ?_⟩ rfl rfl
    rintro rfl
    rfl
  rw [total_concat, own]
  omega

/-- An actor takes at most four steps for each client, and one more. -/
lemma Kept.steps_le {log : List LoggedStep} (K : Kept clients log s) (x : ActorId) :
    total (ofActor (actorName x)) log ≤ 4 * max clients 1 + 1 :=
  (Nat.le_add_right _ _).trans ((K.budget x).trans (owed_start_le (Nat.le_max_right _ _)))

end Interleaving.RegisterRace
