import Mathlib
import Interleaving.Proofs.Program.RegisterRace.Completion
import Interleaving.Proofs.Text.Lines

/-!
# Turns of the register race

What a step does to the roles of the actors and to the messages that are on their way, wherever they are:
it leaves them as they are, a client chooses what to write, or one of the four messages of a conversation
is taken and answered (`Turn`). A log tells which message it was, with its value (`Takes`).
-/

namespace Interleaving.RegisterRace

variable {clients : Nat} {s s' : State} {i j c d : ActorId} {a b : Actor} {notices : List Notice}
variable {log more : List LoggedStep} {kind : MessageKind} {v w : UInt64} {k : Nat}

section Takings

/-- What the scheduler is told when a message of a client's conversation with the server is taken. -/
def taking (kind : MessageKind) (client : ActorId) (v : UInt64) : Notice :=
  .taken (actorName (kind.receiver client)) (Message.event ⟨kind, kind.sender client, v, .empty⟩)

/-- At the step `k`, the message of this kind is taken in the conversation of a client with the server,
and has the value. -/
def Takes (log : List LoggedStep) (k : Nat) (kind : MessageKind) (client : ActorId) (v : UInt64) :
    Prop :=
  TellsAt log k (taking kind client v)

lemma Message.event_injective {m n : Message} (e : m.event = n.event) :
    m.kind = n.kind ∧ m.sender = n.sender ∧ m.value = n.value := by
  have origin := congrArg (·.fields.get? "from") e
  have number := congrArg (·.fields.get? "value") e
  simp only [Message.event, SortedMap.ofList, List.foldl_cons, List.foldl_nil,
    SortedMap.get?_insert] at origin number
  refine ⟨MessageKind.text_injective (congrArg Event.kind e), ?_, ?_⟩
  · exact actorName_injective (by simpa using origin)
  · have same : toString m.value = toString n.value := by simpa using number
    have read := congrArg Text.readUInt64? same
    rw [Text.readUInt64?_toString, Text.readUInt64?_toString] at read
    exact Option.some.inj read

lemma taking_injective {kind' : MessageKind} (e : taking kind c v = taking kind' d w) :
    kind = kind' ∧ c = d ∧ v = w := by
  obtain ⟨receiver, event⟩ := Notice.taken.inj e
  obtain ⟨same, sender, value⟩ := Message.event_injective event
  obtain rfl : kind = kind' := same
  refine ⟨rfl, ?_, value⟩
  cases kind with
  | write => exact sender
  | ack => exact actorName_injective receiver
  | read => exact sender
  | value => exact actorName_injective receiver

lemma Takes.lt_length (h : Takes log k kind c v) : k < log.length := by
  obtain ⟨step, get, -⟩ := h
  exact (List.getElem?_eq_some_iff.mp get).1

lemma Takes.append (h : Takes log k kind c v) : Takes (log ++ more) k kind c v := by
  obtain ⟨step, get, mem⟩ := h
  exact ⟨step, by rw [List.getElem?_append_left (List.getElem?_eq_some_iff.mp get).1, get], mem⟩

end Takings

section Packets

/-- A message on its way. -/
structure Packet where
  kind : MessageKind
  sender : ActorId
  receiver : ActorId
  value : UInt64

/-- A message of the conversation of a client with the server. -/
def packet (kind : MessageKind) (client : ActorId) (v : UInt64) : Packet :=
  ⟨kind, kind.sender client, kind.receiver client, v⟩

lemma packet_injective {kind' : MessageKind} (e : packet kind c v = packet kind' d w) :
    kind = kind' ∧ c = d ∧ v = w := by
  obtain ⟨rfl, sender, receiver, rfl⟩ := Packet.mk.inj e
  refine ⟨rfl, ?_, rfl⟩
  cases kind with
  | write => exact sender
  | ack => exact receiver
  | read => exact sender
  | value => exact receiver

/-- An actor is about to send the message, or to take it. -/
def Actor.Holds (i : ActorId) (a : Actor) (p : Packet) : Prop :=
  p.sender = i ∧ (⟨p.receiver, p.kind, p.value⟩ : Outgoing) ∈ a.outbox ∨
  p.receiver = i ∧ ∃ clock, (⟨p.kind, p.sender, p.value, clock⟩ : Message) ∈ a.inbox

/-- The message is on its way. -/
def OnWay (s : State) (p : Packet) : Prop := ∃ (i : ActorId) (a : Actor), s[i]? = some a ∧ a.Holds i p

/-- What the actor `i` is and what it remembers. -/
def roleOf (s : State) (i : ActorId) : Option Role := s[i]?.map (·.role)

variable {p : Packet} {f : Actor → Actor}

lemma roleOf_set (get : s[i]? = some a) :
    roleOf (s.set i b) = Function.update (roleOf s) i (some b.role) := by
  funext j
  have lt := (List.getElem?_eq_some_iff.mp get).1
  by_cases e : j = i
  · subst e
    rw [Function.update_self, roleOf, List.getElem?_set_self lt, Option.map_some]
  · rw [Function.update_of_ne e, roleOf, List.getElem?_set_ne (Ne.symm e), roleOf]

lemma roleOf_set_of_role_eq (get : s[i]? = some a) (same : b.role = a.role) :
    roleOf (s.set i b) = roleOf s := by
  have old : roleOf s i = some a.role := by rw [roleOf, get, Option.map_some]
  rw [roleOf_set get, same, ← old, Function.update_eq_self]

lemma roleOf_modify (same : ∀ r, (f r).role = r.role) : roleOf (s.modify i f) = roleOf s := by
  funext j
  rw [roleOf, roleOf, List.getElem?_modify]
  cases s[j]? with
  | none => rfl
  | some r =>
    refine congrArg some ?_
    split
    · exact same r
    · rfl

/-- Whatever an actor holds after its step, it has held before or it has posted it. -/
lemma OnWay.of_set {posted : List Outgoing} (h : OnWay (s.set i b) p) (get : s[i]? = some a)
    (outbox : b.outbox ⊆ a.outbox ++ posted) (inbox : b.inbox ⊆ a.inbox) :
    OnWay s p ∨ ∃ out ∈ posted, p = ⟨out.kind, i, out.receiver, out.value⟩ := by
  obtain ⟨j, r, got, holds⟩ := h
  rcases getElem?_set_cases got with ⟨rfl, rfl⟩ | ⟨_, got⟩
  · rcases holds with ⟨sender, mem⟩ | ⟨receiver, clock, mem⟩
    · rcases List.mem_append.mp (outbox mem) with mem | mem
      · exact .inl ⟨j, a, get, .inl ⟨sender, mem⟩⟩
      · exact .inr ⟨_, mem, by rw [← sender]⟩
    · exact .inl ⟨j, a, get, .inr ⟨receiver, clock, inbox mem⟩⟩
  · exact .inl ⟨j, r, got, holds⟩

lemma OnWay.of_silence (h : OnWay (s.set i b) p) (get : s[i]? = some a)
    (outbox : b.outbox ⊆ a.outbox) (inbox : b.inbox ⊆ a.inbox) : OnWay s p := by
  rcases h.of_set get (List.subset_append_of_subset_left [] outbox) inbox with onWay | ⟨_, mem, _⟩
  · exact onWay
  · cases mem

lemma OnWay.of_post {out : Outgoing} (h : OnWay (s.set i b) p) (get : s[i]? = some a)
    (outbox : b.outbox ⊆ a.outbox ++ [out]) (inbox : b.inbox ⊆ a.inbox) :
    OnWay s p ∨ p = ⟨out.kind, i, out.receiver, out.value⟩ := by
  rcases h.of_set get outbox inbox with onWay | ⟨_, mem, e⟩
  · exact .inl onWay
  · rw [List.mem_singleton.mp mem] at e
    exact .inr e

lemma OnWay.of_deliver {m : Message}
    (h : OnWay (s.modify i fun r => { r with inbox := r.inbox ++ [m] }) p) :
    OnWay s p ∨ p = ⟨m.kind, m.sender, i, m.value⟩ := by
  obtain ⟨j, r, get, holds⟩ := h
  rw [List.getElem?_modify] at get
  obtain ⟨r₀, get₀, rfl⟩ := Option.map_eq_some_iff.mp get
  split at holds
  · next e =>
    rcases holds with out | ⟨receiver, clock, mem⟩
    · exact .inl ⟨j, r₀, get₀, .inl out⟩
    rcases List.mem_append.mp mem with mem | mem
    · exact .inl ⟨j, r₀, get₀, .inr ⟨receiver, clock, mem⟩⟩
    · obtain rfl := List.mem_singleton.mp mem
      obtain rfl := e.trans receiver.symm
      exact .inr rfl
  · exact .inl ⟨j, r₀, get₀, holds⟩

end Packets

/-- A client complains if it reads anything else than it has written. -/
def complaint (client : ActorId) (written : Option UInt64) (v : UInt64) : List Notice :=
  if written = some v then []
  else [.bug s!"{actorName client} read {v} after writing {written.getD 0}"]

/-- What a step does to the roles and to the messages that are on their way, and what it tells of. -/
inductive Turn (s s' : State) : List Notice → Prop where
  | quiet {notices : List Notice} :
    (∀ notice ∈ notices, ∃ sender location receiver clock,
      notice = .sent sender location receiver clock) →
    roleOf s' = roleOf s →
    (∀ p, OnWay s' p → OnWay s p) →
    Turn s s' notices
  | start {c : ActorId} {done : Bool} {n : UInt64} :
    n < 10 →
    roleOf s c = some (.client none done) →
    roleOf s' = Function.update (roleOf s) c (some (.client (some (.ofNat c * 100 + n)) done)) →
    (∀ p, OnWay s' p → OnWay s p ∨ p = packet .write c (.ofNat c * 100 + n)) →
    Turn s s' []
  | write {c : ActorId} {v register : UInt64} :
    OnWay s (packet .write c v) →
    roleOf s server = some (.server register) →
    roleOf s' = Function.update (roleOf s) server (some (.server v)) →
    (∀ p, OnWay s' p → OnWay s p ∨ p = packet .ack c v) →
    Turn s s' [taking .write c v]
  | ack {c : ActorId} {v : UInt64} :
    OnWay s (packet .ack c v) →
    roleOf s' = roleOf s →
    (∀ p, OnWay s' p → OnWay s p ∨ p = packet .read c 0) →
    Turn s s' [taking .ack c v]
  | read {c : ActorId} {v register : UInt64} :
    OnWay s (packet .read c v) →
    roleOf s server = some (.server register) →
    roleOf s' = roleOf s →
    (∀ p, OnWay s' p → OnWay s p ∨ p = packet .value c register) →
    Turn s s' [taking .read c v]
  | value {c : ActorId} {v : UInt64} {written : Option UInt64} {done : Bool} :
    OnWay s (packet .value c v) →
    roleOf s c = some (.client written done) →
    roleOf s' = Function.update (roleOf s) c (some (.client written true)) →
    (∀ p, OnWay s' p → OnWay s p) →
    Turn s s' (taking .value c v :: complaint c written v)

section Requests

variable {id : OperationId}

lemma turn_of_sendNext {out : Outgoing} {outbox : List Outgoing} (get : s[i]? = some a)
    (full : a.outbox = out :: outbox)
    (tells : (sendNext s i a out outbox).TellsInRange id notices s') : Turn s s' notices := by
  cases tells with
  | send rest =>
    split at rest
    · cases rest
      refine .quiet (fun notice mem => ?_) ?_ fun p onWay => ?_
      · exact ⟨_, _, _, _, List.mem_singleton.mp mem⟩
      · rw [roleOf_modify]
        · exact roleOf_set_of_role_eq get rfl
        · exact fun _ => rfl
      · rcases onWay.of_deliver with onWay | rfl
        · apply onWay.of_silence get _ (List.Subset.refl _)
          rw [full]
          exact List.subset_cons_self out outbox
        · exact ⟨i, a, get, .inl ⟨rfl, full ▸ List.mem_cons_self⟩⟩
    · cases rest

lemma turn_of_startActor (get : s[i]? = some a)
    (unwritten : ∀ written done, a.role = .client written done → written = none)
    (tells : (startActor s i a).TellsInRange id notices s') : Turn s s' notices := by
  have own : roleOf s i = some a.role := by rw [roleOf, get, Option.map_some]
  obtain ⟨role, clock, started, inbox, outbox⟩ := a
  cases role with
  | server register =>
    cases tells
    refine .quiet (fun _ mem => absurd mem List.not_mem_nil) (roleOf_set_of_role_eq get rfl) ?_
    exact fun p onWay => onWay.of_silence get (List.Subset.refl _) (List.Subset.refl _)
  | client written done =>
    obtain rfl := unwritten written done rfl
    cases tells with
    | @chooseInt _ _ _ _ n _ below answered =>
      cases answered
      refine .start (below.resolve_left (by decide)) own (roleOf_set get) fun p onWay => ?_
      exact onWay.of_post get (List.Subset.refl _) (List.Subset.refl _)

lemma turn_of_receiveNext {m : Message} {inbox : List Message} (get : s[i]? = some a)
    (full : a.inbox = m :: inbox) (routed : a.Routed clients i)
    (tells : (receiveNext s i a m inbox).TellsInRange id notices s') : Turn s s' notices := by
  have passes := routed.inbox m (full ▸ List.mem_cons_self)
  have own : roleOf s i = some a.role := by rw [roleOf, get, Option.map_some]
  have isServer := routed.role
  have holds : OnWay s ⟨m.kind, m.sender, i, m.value⟩ :=
    ⟨i, a, get, .inr ⟨rfl, m.clock, full ▸ List.mem_cons_self⟩⟩
  obtain ⟨role, clock, started, _, outbox⟩ := a
  obtain ⟨kind, sender, v, stamp⟩ := m
  obtain rfl := full
  have behind : inbox ⊆ ⟨kind, sender, v, stamp⟩ :: inbox := List.subset_cons_self _ _
  cases tells with
  | dequeue rest =>
  cases role with
  | server register =>
    obtain rfl := isServer.mp ⟨register, rfl⟩
    cases passes with
    | write client =>
      cases rest
      refine .write (c := sender) holds own (roleOf_set get) fun p onWay => ?_
      exact onWay.of_post get (List.Subset.refl _) behind
    | read client =>
      cases rest
      refine .read (c := sender) holds own (roleOf_set_of_role_eq get rfl) fun p onWay => ?_
      exact onWay.of_post get (List.Subset.refl _) behind
    | ack client => exact absurd rfl client.ne
    | value client => exact absurd rfl client.ne
  | client written done =>
    cases passes with
    | write => exact absurd (isServer.mpr rfl) Actor.not_isServer
    | read => exact absurd (isServer.mpr rfl) Actor.not_isServer
    | ack client =>
      cases rest
      refine .ack (c := i) holds (roleOf_set_of_role_eq get rfl) fun p onWay => ?_
      exact onWay.of_post get (List.Subset.refl _) behind
    | value client =>
      have told : Turn s (s.set i (.tick i ⟨.client written true, clock.merge stamp, started, inbox, outbox⟩))
          (taking .value i v :: complaint i written v) := by
        refine .value (c := i) holds own (roleOf_set get) fun p onWay => ?_
        exact onWay.of_silence get (List.Subset.refl _) behind
      simp only [Actor.tick] at rest
      rw [complaint] at told
      by_cases same : written = some v
      · rw [if_pos same] at rest told
        cases rest
        exact told
      · rw [if_neg same] at rest told
        cases rest with
        | report done =>
          cases done
          exact told

/-- A client that has not started has nothing to write yet. -/
def Actor.IsFresh (a : Actor) : Prop :=
  a.started = false → ∀ written done, a.role = .client written done → written = none

lemma turn_of_tells {op : Operation} (small : s.length ≤ 2 ^ 64) (routed : Each (Actor.Routed clients) s)
    (fresh : Each (fun _ a => a.IsFresh) s) (mem : op ∈ s.mapIdx Actor.operation)
    (tells : (execute s op.id).TellsInRange op.id notices s') : Turn s s' notices := by
  obtain ⟨i, lt, rfl⟩ := List.mem_mapIdx.mp mem
  have get := List.getElem?_eq_getElem lt
  have id : (UInt64.ofNat i).toNat = i := UInt64.toNat_ofNat_of_lt' (lt.trans_le small)
  rw [Actor.operation_id, execute, id, get] at tells
  generalize s[i] = a at get tells
  simp only at tells
  split at tells
  · next full => exact turn_of_sendNext get full tells
  · split at tells
    · next first => exact turn_of_startActor get (fresh i a get (by simpa using first)) tells
    · split at tells
      · next full => exact turn_of_receiveNext get full (routed i a get) tells
      · cases tells

end Requests

lemma isFresh_onMessage {m : Message} (h : a.IsFresh) : (a.onMessage i m).1.IsFresh := by
  obtain ⟨kind, sender, v, stamp⟩ := m
  obtain ⟨role, clock, started, inbox, outbox⟩ := a
  intro first written done eq
  cases role with
  | server register => cases kind <;> cases eq
  | client written' done' =>
    cases kind <;> cases eq <;> exact h first _ _ rfl

lemma isFresh_of_runs (one : 1 ≤ clients) (few : clients < 2 ^ 64)
    (run : (program clients).Runs log s) : Each (fun _ a => a.IsFresh) s := by
  apply (invariant_of_runs (P := fun _ s => Each (fun _ a => a.IsFresh) s) one few _ _ run).2.2
  · intro i a get first written done eq
    rcases List.mem_cons.mp (List.mem_of_getElem? get) with rfl | mem
    · cases eq
    · rw [List.eq_of_mem_replicate mem] at eq
      cases eq
      rfl
  intro log s s' i a notices length routed get stepped fresh
  have own := fresh i a get
  cases stepped with
  | send full => exact (fresh.set (b := Actor.tick i { a with outbox := _ }) own).modify fun _ h => h
  | startServer => exact fresh.set nofun
  | startClient => exact fresh.set nofun
  | take full bugs => exact fresh.set (isFresh_onMessage own)

end Interleaving.RegisterRace
