import Mathlib
import Interleaving.Proofs.Program.RegisterRace.Steps

/-!
# Completion of the register race

Every run of the register race comes to the same end, in whichever order the actors take their steps
(`completes_of_runs`). A message goes from a client to the server or back (`Passes`), and each one that is
taken is answered by the next (`MessageKind.next?`), so that each client has one message on its way until
it has taken the last. A weight that settles with a count loses with each step what the step counts
(`Stepped.weight`), and is gone when nothing can run any more.
-/

namespace Interleaving.RegisterRace

open LoggedStep

variable {clients : Nat} {s s' : State} {i j : ActorId} {a : Actor} {notices : List Notice}
variable {log : List LoggedStep} {kind : MessageKind} {w : Weight} {count : LoggedStep → Nat}

section Routes

/-- Whether a number is that of a client. -/
def IsClient (clients : Nat) (i : ActorId) : Prop := server < i ∧ i ≤ clients

/-- The clients write and read, and the server acknowledges and tells its value. -/
inductive Passes (clients : Nat) : MessageKind → ActorId → ActorId → Prop where
  | write {c : ActorId} : IsClient clients c → Passes clients .write c server
  | ack {c : ActorId} : IsClient clients c → Passes clients .ack server c
  | read {c : ActorId} : IsClient clients c → Passes clients .read c server
  | value {c : ActorId} : IsClient clients c → Passes clients .value server c

/-- The kind of message with which a message is answered. -/
def MessageKind.next? : MessageKind → Option MessageKind
  | write => some ack
  | ack => some read
  | read => some value
  | value => none

/-- All messages of an actor are on a way that messages of their kind go. -/
structure Actor.Routed (clients : Nat) (i : ActorId) (a : Actor) : Prop where
  role : a.role.IsServer ↔ i = server
  outbox : ∀ out ∈ a.outbox, Passes clients out.kind i out.receiver
  inbox : ∀ m ∈ a.inbox, Passes clients m.kind m.sender i

lemma IsClient.ne (h : IsClient clients i) : i ≠ server := Nat.ne_of_gt h.1

lemma Passes.receiver_le (h : Passes clients kind i j) : j ≤ clients := by
  cases h with
  | write => exact Nat.zero_le clients
  | ack h => exact h.2
  | read => exact Nat.zero_le clients
  | value h => exact h.2

lemma Passes.answer (h : Passes clients kind i j) {k : MessageKind} (next : kind.next? = some k) :
    Passes clients k j i := by
  cases h with
  | write h =>
    cases next
    exact .ack h
  | ack h =>
    cases next
    exact .read h
  | read h =>
    cases next
    exact .value h
  | value => cases next

lemma Actor.Routed.behind {m : Message} {inbox : List Message} (h : a.Routed clients i)
    (full : a.inbox = m :: inbox) :
    ({ a with inbox, clock := a.clock.merge m.clock }.tick i).Routed clients i :=
  ⟨h.role, h.outbox, fun m' mem => h.inbox m' (full ▸ List.mem_cons_of_mem _ mem)⟩

/-- A message on its way is answered to its sender. The last one is not, and its receiver is finished. -/
lemma onMessage_of_passes {m : Message} (routed : a.Routed clients i)
    (passes : Passes clients m.kind m.sender i) : ∃ role v,
    (a.onMessage i m).1 = { a with
      role, outbox := a.outbox ++ m.kind.next?.toList.map (⟨m.sender, ·, v⟩) } ∧
    (role.IsServer ↔ a.role.IsServer) ∧
    (m.kind = .value ∨ a.role.isFinished = true → role.isFinished = true) := by
  obtain ⟨kind, sender, value, clock⟩ := m
  obtain ⟨role, _, started, inbox, outbox⟩ := a
  have server_iff := routed.role
  simp only at passes server_iff ⊢
  cases role with
  | server register =>
    have own := server_iff.mp ⟨register, rfl⟩
    cases passes with
    | write =>
      exact ⟨.server value, value, rfl, ⟨fun _ => ⟨_, rfl⟩, fun _ => ⟨_, rfl⟩⟩, fun _ => rfl⟩
    | read => exact ⟨.server register, register, rfl, Iff.rfl, fun _ => rfl⟩
    | ack client => exact absurd own client.ne
    | value client => exact absurd own client.ne
  | client written done =>
    have other : i ≠ server := fun e => Actor.not_isServer (server_iff.mpr e)
    cases passes with
    | write => exact absurd rfl other
    | read => exact absurd rfl other
    | ack => exact ⟨.client written done, 0, rfl, Iff.rfl, fun h => h.resolve_left (by decide)⟩
    | value =>
      refine ⟨.client written true, 0, ?_, ?_, fun _ => rfl⟩
      · simp [Actor.onMessage, MessageKind.next?]
      · exact ⟨fun h => absurd h Actor.not_isServer, fun h => absurd h Actor.not_isServer⟩

lemma Stepped.routed (h : Stepped s i a notices s') (routed : Each (Actor.Routed clients) s)
    (get : s[i]? = some a) (le : i ≤ clients) : Each (Actor.Routed clients) s' := by
  have own := routed i a get
  cases h with
  | @send out outbox full =>
    have passes := own.outbox out (full ▸ List.mem_cons_self)
    have rest : ({ a with outbox }.tick i).Routed clients i :=
      ⟨own.role, fun o mem => own.outbox o (full ▸ List.mem_cons_of_mem _ mem), own.inbox⟩
    refine (routed.set rest).modify fun r h => ⟨h.role, h.outbox, fun m mem => ?_⟩
    rcases List.mem_append.mp mem with mem | mem
    · exact h.inbox m mem
    · obtain rfl := List.mem_singleton.mp mem
      exact passes
  | startServer fresh role => exact routed.set ⟨own.role, own.outbox, own.inbox⟩
  | startClient fresh role =>
    have ne : i ≠ server := fun e => Actor.not_isServer (role ▸ own.role.mpr e)
    refine routed.set ⟨⟨fun h => absurd h Actor.not_isServer, fun e => absurd e ne⟩,
      fun out mem => ?_, own.inbox⟩
    rcases List.mem_append.mp mem with mem | mem
    · exact own.outbox out mem
    · obtain rfl := List.mem_singleton.mp mem
      exact .write ⟨Nat.pos_of_ne_zero ne, le⟩
  | @take m inbox complaint full _ =>
    have passes := own.inbox m (full ▸ List.mem_cons_self)
    have rest := own.behind full
    obtain ⟨role, v, e, same, -⟩ := onMessage_of_passes rest passes
    rw [e]
    refine routed.set ⟨same.trans own.role, fun out mem => ?_, rest.inbox⟩
    rcases List.mem_append.mp mem with mem | mem
    · exact own.outbox out mem
    · obtain ⟨kind, next, rfl⟩ := List.mem_map.mp mem
      exact passes.answer (Option.mem_toList.mp next)

lemma routed_start : Each (Actor.Routed clients) (start clients) := by
  intro i a get
  have own := fits_start i a get
  have empty : a.outbox = [] ∧ a.inbox = [] := by
    rcases List.mem_cons.mp (List.mem_of_getElem? get) with rfl | mem
    · exact ⟨rfl, rfl⟩
    · rw [List.eq_of_mem_replicate mem]
      exact ⟨rfl, rfl⟩
  refine ⟨own.role, fun out mem => ?_, fun m mem => ?_⟩
  · rw [empty.1] at mem
    cases mem
  · rw [empty.2] at mem
    cases mem

end Routes

section Settling

/-- With each step of an actor, a weight loses what is counted of the step. -/
structure Weight.Settles (clients : Nat) (w : Weight) (count : LoggedStep → Nat) : Prop where
  startServer : ∀ register, w.first server (.server register) = count ⟨actorName server, []⟩
  startClient : ∀ {i written done}, IsClient clients i →
    w.first i (.client written done) = w.unsent .write i server + count ⟨actorName i, []⟩
  send : ∀ {kind i j location clock}, Passes clients kind i j → w.unsent kind i j =
    w.untaken kind i j +
      count ⟨actorName i, [.sent (actorName i) location (actorName j) clock]⟩
  take : ∀ {m : Message} {i complaint}, Passes clients m.kind m.sender i →
    (∀ notice ∈ complaint, ∃ message, notice = .bug message) →
    w.untaken m.kind m.sender i = (m.kind.next?.toList.map (w.unsent · i m.sender)).sum +
      count ⟨actorName i, .taken (actorName i) m.event :: complaint⟩

/-- How much is to come from an actor before its first step is the same for all that it can be. -/
lemma Weight.Settles.first_congr {role role' : Role} (settles : w.Settles clients count)
    (own : role.IsServer ↔ i = server) (same : role'.IsServer ↔ role.IsServer)
    (le : i ≤ clients) : w.first i role = w.first i role' := by
  cases role with
  | server register =>
    obtain ⟨register', rfl⟩ := same.mpr ⟨register, rfl⟩
    rw [own.mp ⟨register, rfl⟩, settles.startServer, settles.startServer]
  | client written done =>
    cases role' with
    | server register' => exact absurd (same.mp ⟨register', rfl⟩) Actor.not_isServer
    | client written' done' =>
      have ne : i ≠ server := fun e => Actor.not_isServer (own.mpr e)
      have client : IsClient clients i := ⟨Nat.pos_of_ne_zero ne, le⟩
      rw [settles.startClient client, settles.startClient client]

lemma Actor.weight_answered {role : Role} {kinds : List MessageKind} {v : UInt64}
    (first : w.first i a.role = w.first i role) :
    ({ a with role, outbox := a.outbox ++ kinds.map (⟨j, ·, v⟩) } : Actor).weight w i =
      a.weight w i + (kinds.map (w.unsent · i j)).sum := by
  have posted : ((kinds.map (⟨j, ·, v⟩ : MessageKind → Outgoing)).map fun out =>
      w.unsent out.kind i out.receiver) = kinds.map (w.unsent · i j) := List.map_map
  simp only [weight, List.map_append, List.sum_append, posted, first]
  omega

lemma Stepped.weight (settles : w.Settles clients count) (routed : a.Routed clients i)
    (get : s[i]? = some a) (length : s.length = clients + 1) (h : Stepped s i a notices s') :
    weight w s = weight w s' + count ⟨actorName i, notices⟩ := by
  have le : i ≤ clients :=
    Nat.le_of_lt_succ ((List.getElem?_eq_some_iff.mp get).1.trans_eq length)
  -- All but a send changes the one actor only.
  have alone : ∀ b : Actor, a.weight w i = b.weight w i + count ⟨actorName i, notices⟩ →
      RegisterRace.weight w s =
        RegisterRace.weight w (s.set i b) + count ⟨actorName i, notices⟩ := by
    intro b loss
    have set := weight_set (w := w) (b := b) get
    omega
  cases h with
  | @send out outbox full =>
    have passes := routed.outbox out (full ▸ List.mem_cons_self)
    have rest := weight_set (w := w) (b := { a with outbox }.tick i) get
    rw [Actor.weight_of_outbox full] at rest
    have there : out.receiver < (s.set i ({ a with outbox }.tick i)).length := by
      rw [List.length_set, length]
      exact Nat.lt_succ_of_le passes.receiver_le
    rw [weight_deliver, if_pos there]
    dsimp only
    have settled : w.unsent out.kind i out.receiver = w.untaken out.kind i out.receiver +
        count ⟨actorName i, [.sent (actorName i) out.kind.location (actorName out.receiver)
          (a.clock.increment (actorName i))]⟩ := settles.send passes
    omega
  | @startServer register fresh role =>
    have own : i = server := routed.role.mp ⟨register, role⟩
    have settled := settles.startServer register
    refine alone _ ?_
    simp only [Actor.weight, Actor.tick, fresh, role, own, cond_true, cond_false]
    omega
  | @startClient written done value fresh role =>
    have ne : i ≠ server := fun e => Actor.not_isServer (role ▸ routed.role.mpr e)
    have settled : w.first i (.client written done) = w.unsent .write i server +
        count ⟨actorName i, []⟩ := settles.startClient ⟨Nat.pos_of_ne_zero ne, le⟩
    refine alone _ ?_
    rw [Actor.weight_post]
    simp only [Actor.weight, Actor.tick, fresh, role, cond_true, cond_false]
    omega
  | @take m inbox complaint full bugs =>
    have passes := routed.inbox m (full ▸ List.mem_cons_self)
    have settled := settles.take passes bugs
    have rest := routed.behind full
    obtain ⟨role, v, e, same, -⟩ := onMessage_of_passes rest passes
    refine alone _ ?_
    rw [Actor.weight_of_inbox (a.clock.merge m.clock) full, e,
      Actor.weight_answered (settles.first_congr rest.role same le)]
    omega

end Settling

section Runs

variable {P : List LoggedStep → State → Prop}

/-- What is true at the start and stays true with each step is true in every run. Operations have numbers
below `2 ^ 64`, so there are no more actors. -/
lemma invariant_of_runs (one : 1 ≤ clients) (few : clients < 2 ^ 64) (initial : P [] (start clients))
    (step : ∀ {log s s' i a notices}, s.length = clients + 1 → a.Routed clients i →
      s[i]? = some a → Stepped s i a notices s' → P log s →
      P (log ++ [⟨actorName i, notices⟩]) s')
    (run : (program clients).Runs log s) :
    s.length = clients + 1 ∧ Each (Actor.Routed clients) s ∧ P log s := by
  induction run with
  | initial =>
    show (start (max clients 1)).length = _ ∧ Each _ (start (max clients 1)) ∧
      P [] (start (max clients 1))
    rw [Nat.max_eq_left one]
    exact ⟨by simp [start], routed_start, initial⟩
  | @step log s s' op notices run mem enabled tells ih =>
    obtain ⟨length, routed, kept⟩ := ih
    have small : s.length ≤ 2 ^ 64 := by omega
    obtain ⟨i, a, get, actor, stepped⟩ := stepped_of_tells small mem tells
    have le : i ≤ clients :=
      Nat.le_of_lt_succ ((List.getElem?_eq_some_iff.mp get).1.trans_eq length)
    rw [actor]
    exact ⟨stepped.length.trans length, stepped.routed routed get le,
      step length (routed i a get) get stepped kept⟩

/-- All that a weight loses in a run is counted. -/
lemma Weight.Settles.total_add_weight (settles : w.Settles clients count) (one : 1 ≤ clients)
    (few : clients < 2 ^ 64) (run : (program clients).Runs log s) :
    total count log + weight w s = weight w (start clients) := by
  apply (invariant_of_runs (P := fun log s => total count log + weight w s =
    weight w (start clients)) one few (Nat.zero_add _) _ run).2.2
  intro log s s' i a notices length routed get stepped kept
  have loss := stepped.weight settles routed get length
  rw [total_concat]
  omega

end Runs

section Counts

/-- The steps that are still to come. -/
def ahead : Weight where
  first
    | _, .server _ => 1
    | _, .client .. => 9
  unsent kind _ _ := 2 * kind.ahead
  untaken kind _ _ := 2 * kind.ahead - 1

lemma settles_ahead : ahead.Settles clients fun _ => 1 where
  startServer _ := rfl
  startClient _ := rfl
  send {kind _ _ _ _} _ := by cases kind <;> rfl
  take {m _ _} _ _ := by
    show 2 * m.kind.ahead - 1 = (m.kind.next?.toList.map (2 * ·.ahead)).sum + 1
    cases m.kind <;> rfl

/-- Whether a message is taken. -/
def isTaken : Notice → Bool
  | .taken .. => true
  | _ => false

/-- The messages that are still to be taken. -/
def toBeTaken : Weight where
  first
    | _, .server _ => 0
    | _, .client .. => 4
  unsent kind _ _ := kind.ahead
  untaken kind _ _ := kind.ahead

lemma settles_toBeTaken : toBeTaken.Settles clients (·.notices.countP isTaken) where
  startServer _ := rfl
  startClient _ := rfl
  send _ := rfl
  take {m _ complaint} _ bugs := by
    have none := countP_eq_zero_of_bugs bugs (p := isTaken) fun _ => rfl
    rw [List.countP_cons_of_pos rfl, none]
    show m.kind.ahead = (m.kind.next?.toList.map (·.ahead)).sum + 1
    cases m.kind <;> rfl

namespace MessageKind

/-- Who sends a message of this kind in the conversation of a client with the server. -/
def sender (client : ActorId) : MessageKind → ActorId
  | write | read => client
  | ack | value => server

/-- Who takes a message of this kind in the conversation of a client with the server. -/
def receiver (client : ActorId) : MessageKind → ActorId
  | write | read => server
  | ack | value => client

lemma text_injective {k l : MessageKind} (e : k.text = l.text) : k = l := by
  cases k <;> cases l <;> try rfl
  all_goals exact absurd e (by decide)

end MessageKind

/-- Whether a message of this kind is taken in the conversation of a client with the server. -/
def isTaking (kind : MessageKind) (client : ActorId) : Notice → Bool
  | .taken receiver event =>
    event.kind == kind.text && receiver == actorName (kind.receiver client) &&
      event.fields.get? "from" == some (actorName (kind.sender client))
  | _ => false

/-- The messages of this kind that are taken in the conversation of a client with the server. -/
def takings (kind : MessageKind) (client : ActorId) (step : LoggedStep) : Nat :=
  step.notices.countP (isTaking kind client)

variable {client : ActorId}

lemma isTaking_event {m : Message} : isTaking kind client (.taken (actorName i) m.event) = true ↔
    m.kind = kind ∧ i = kind.receiver client ∧ m.sender = kind.sender client := by
  have origin : m.event.fields.get? "from" = some (actorName m.sender) := by
    simp [Message.event, SortedMap.ofList, SortedMap.get?_insert]
  rw [isTaking, origin, Bool.and_eq_true, Bool.and_eq_true, beq_iff_eq, beq_iff_eq, beq_iff_eq,
    Option.some_inj, and_assoc]
  refine and_congr ⟨MessageKind.text_injective, congrArg MessageKind.text⟩ (and_congr ?_ ?_)
  · exact ⟨actorName_injective, congrArg _⟩
  · exact ⟨actorName_injective, congrArg _⟩

lemma takings_take {m : Message} {complaint : List Notice}
    (bugs : ∀ notice ∈ complaint, ∃ message, notice = .bug message) :
    takings kind client ⟨actorName i, .taken (actorName i) m.event :: complaint⟩ =
      if m.kind = kind ∧ i = kind.receiver client ∧ m.sender = kind.sender client then 1 else 0 := by
  have none := countP_eq_zero_of_bugs bugs (p := isTaking kind client) fun _ => rfl
  rw [takings, List.countP_cons, none, Nat.zero_add]
  exact if_congr isTaking_event rfl rfl

/-- The message of this kind that is still to be taken in the conversation of a client. -/
def conversing (kind : MessageKind) (client : ActorId) : Weight where
  first
    | _, .server _ => 0
    | i, .client .. => if i = client then 1 else 0
  unsent k i j := if kind.ahead ≤ k.ahead ∧ (i = client ∨ j = client) then 1 else 0
  untaken k i j := if kind.ahead ≤ k.ahead ∧ (i = client ∨ j = client) then 1 else 0

lemma settles_conversing (kind : MessageKind) (h : IsClient clients client) :
    (conversing kind client).Settles clients (takings kind client) where
  startServer _ := rfl
  startClient {i _ _} _ := by
    have ne := h.ne.symm
    have le : kind.ahead ≤ MessageKind.write.ahead := by cases kind <;> decide
    simp [conversing, takings, le, ne]
  send _ := rfl
  take {m i complaint} passes bugs := by
    have ne := h.ne.symm
    rw [takings_take bugs]
    generalize m.kind = k, m.sender = sender at passes
    cases passes <;> cases kind <;>
      simp [conversing, MessageKind.next?, MessageKind.ahead, MessageKind.sender,
        MessageKind.receiver, ne]

end Counts

section Starts

lemma weight_start (w : Weight) (clients : Nat) : weight w (start clients) =
    w.first server (.server 0) +
      ((List.range clients).map fun i => w.first (i + 1) (.client none false)).sum := by
  have clients : ((List.replicate clients (Actor.ofRole (.client none false))).mapIdx
        fun i => Actor.weight w (i + 1)) =
      (List.range clients).map fun i => w.first (i + 1) (.client none false) := by
    induction clients with
    | zero => rfl
    | succ n ih =>
      rw [List.replicate_succ', List.mapIdx_concat, ih, List.range_succ, List.map_append,
        List.length_replicate]
      rfl
  rw [weight, start, List.mapIdx_cons, List.sum_cons, clients]
  rfl

lemma weight_ahead_start : weight ahead (start clients) = 9 * clients + 1 := by
  rw [weight_start]
  show 1 + ((List.range clients).map fun _ => 9).sum = _
  rw [List.map_const', List.sum_replicate, List.length_range, smul_eq_mul]
  omega

lemma weight_toBeTaken_start : weight toBeTaken (start clients) = 4 * clients := by
  rw [weight_start]
  show 0 + ((List.range clients).map fun _ => 4).sum = _
  rw [List.map_const', List.sum_replicate, List.length_range, smul_eq_mul]
  omega

lemma weight_conversing_start {client : ActorId} (h : IsClient clients client) :
    weight (conversing kind client) (start clients) = 1 := by
  obtain ⟨n, rfl⟩ := Nat.exists_eq_succ_of_ne_zero h.ne
  rw [weight_start]
  show 0 + (∑ i ∈ Finset.range clients, if i + 1 = n + 1 then 1 else 0) = 1
  simp [Nat.lt_of_succ_le h.2]

end Starts

section Ends

/-- An actor that has nothing to do until it gets a message. -/
def Actor.IsQuiet (a : Actor) : Prop := a.started = true ∧ a.outbox = [] ∧ a.inbox = []

lemma isEnabled_operation : (a.operation i).isEnabled = true ↔ ¬ a.IsQuiet := by
  obtain ⟨role, clock, started, inbox, outbox⟩ := a
  cases outbox with
  | cons out outbox => exact iff_of_true rfl fun quiet => List.cons_ne_nil _ _ quiet.2.1
  | nil =>
    cases started with
    | false => exact iff_of_true rfl fun quiet => Bool.false_ne_true quiet.1
    | true =>
      cases inbox with
      | cons m inbox => exact iff_of_true rfl fun quiet => List.cons_ne_nil _ _ quiet.2.2
      | nil =>
        refine iff_of_false ?_ (not_not_intro ⟨rfl, rfl, rfl⟩)
        cases finished : role.isFinished <;>
          simp [Actor.operation, Operation.isEnabled, finished]

lemma weight_eq_zero_iff : weight w s = 0 ↔ Each (fun i a => a.weight w i = 0) s := by
  rw [weight, List.sum_eq_zero_iff]
  constructor
  · intro zero i a get
    apply zero
    rw [List.mem_mapIdx]
    obtain ⟨lt, rfl⟩ := List.getElem?_eq_some_iff.mp get
    exact ⟨i, lt, rfl⟩
  · intro zero n mem
    obtain ⟨i, lt, rfl⟩ := List.mem_mapIdx.mp mem
    exact zero i _ (List.getElem?_eq_getElem lt)

lemma Actor.IsQuiet.weight_eq_zero (h : a.IsQuiet) : a.weight w i = 0 := by
  rw [weight, h.1, h.2.1, h.2.2]
  rfl

/-- As long as something can run, there are steps to come. -/
lemma isQuiet_of_ahead (h : a.weight ahead i = 0) : a.IsQuiet := by
  obtain ⟨role, clock, started, inbox, outbox⟩ := a
  simp only [Actor.weight, Nat.add_eq_zero_iff] at h
  obtain ⟨⟨first, unsent⟩, untaken⟩ := h
  refine ⟨?_, ?_, ?_⟩
  · cases started with
    | true => rfl
    | false => cases role <;> cases first
  · cases outbox with
    | nil => rfl
    | cons out outbox =>
      have more := out.kind.one_le_ahead
      simp only [List.map_cons, List.sum_cons, ahead] at unsent
      omega
  · cases inbox with
    | nil => rfl
    | cons m inbox =>
      have more := m.kind.one_le_ahead
      simp only [List.map_cons, List.sum_cons, ahead] at untaken
      omega

lemma weight_ahead_eq_zero_iff : weight ahead s = 0 ↔ Each (fun _ a => a.IsQuiet) s := by
  rw [weight_eq_zero_iff]
  exact ⟨fun h i a get => isQuiet_of_ahead (h i a get),
    fun h i a get => (h i a get).weight_eq_zero⟩

lemma none_enabled_iff : (∀ op ∈ s.mapIdx Actor.operation, op.isEnabled = false) ↔
    Each (fun _ a => a.IsQuiet) s := by
  constructor
  · intro none i a get
    obtain ⟨lt, rfl⟩ := List.getElem?_eq_some_iff.mp get
    have disabled := none _ (List.mem_mapIdx.mpr ⟨i, lt, rfl⟩)
    by_contra busy
    rw [isEnabled_operation.mpr busy] at disabled
    cases disabled
  · intro quiet op mem
    obtain ⟨i, lt, rfl⟩ := List.mem_mapIdx.mp mem
    rw [← Bool.not_eq_true]
    exact fun enabled => isEnabled_operation.mp enabled (quiet i _ (List.getElem?_eq_getElem lt))

/-- An operation that can run does run to its end. -/
lemma completes_of_isEnabled (small : s.length ≤ 2 ^ 64) (length : s.length = clients + 1)
    (routed : Each (Actor.Routed clients) s) {op : Operation} (mem : op ∈ s.mapIdx Actor.operation)
    (enabled : op.isEnabled = true) : (execute s op.id).Completes := by
  obtain ⟨i, lt, rfl⟩ := List.mem_mapIdx.mp mem
  have get := List.getElem?_eq_getElem lt
  have id : (UInt64.ofNat i).toNat = i := UInt64.toNat_ofNat_of_lt' (lt.trans_le small)
  have busy := isEnabled_operation.mp enabled
  have own := routed i _ get
  rw [Actor.operation_id, execute, id, get]
  generalize s[i] = a at busy own
  simp only
  split
  · next out outbox full =>
    have passes := own.outbox out (full ▸ List.mem_cons_self)
    have there : out.receiver < s.length := (Nat.lt_succ_of_le passes.receiver_le).trans_eq length.symm
    simp only [sendNext, Action.Completes, if_pos there]
  · next unsent =>
    split
    · rw [startActor]
      split
      · trivial
      · exact fun _ => trivial
    · next started =>
      split
      · rw [receiveNext]
        simp only [Action.Completes]
        split <;> trivial
      · next untaken => exact absurd ⟨by simpa using started, unsent, untaken⟩ busy

/-- A client that has taken the last message of its conversation is finished. -/
lemma isFinished_of_takings (one : 1 ≤ clients) (few : clients < 2 ^ 64)
    (run : (program clients).Runs log s) :
    Each (fun i a => 0 < total (takings .value i) log → a.role.isFinished = true) s := by
  apply (invariant_of_runs (P := fun log s => Each (fun i a =>
    0 < total (takings .value i) log → a.role.isFinished = true) s) one few _ _ run).2.2
  · exact fun i a get none => absurd none (Nat.lt_irrefl 0)
  intro log s s' i a notices length routed get stepped kept
  simp only [total_concat]
  cases stepped with
  | @send out outbox full =>
    have rest := kept.set (b := { a with outbox }.tick i) (kept i a get)
    exact rest.modify (i := out.receiver) fun b h => h
  | startServer fresh role => exact kept.set (kept i a get)
  | startClient fresh role =>
    refine kept.set fun taken => ?_
    have own := kept i a get taken
    rwa [role] at own
  | @take m inbox complaint full bugs =>
    intro j b get' taken
    rw [takings_take bugs] at taken
    rcases getElem?_set_cases get' with ⟨rfl, rfl⟩ | ⟨ne, get'⟩
    · have passes := routed.inbox m (full ▸ List.mem_cons_self)
      obtain ⟨role, v, e, -, finished⟩ := onMessage_of_passes (routed.behind full) passes
      rw [e]
      apply finished
      by_cases last : m.kind = .value
      · exact .inl last
      · rw [if_neg fun h => last h.1] at taken
        exact .inr (kept j a get taken)
    · rw [if_neg fun h => ne h.2.1.symm] at taken
      exact kept j b get' taken

end Ends

/-- In every run, an operation that can run does run to its end, whatever the answers are; there are never
more than nine steps for each client and one more; and nothing can run any more if and only if there were
as many. Then no message is left, every client is finished, and in its conversation with the server each
kind of message has been taken once, which are all messages that have been taken. The number of clients
is a word of 64 bits, like the numbers of their operations. -/
theorem completes_of_runs (one : 1 ≤ clients) (few : clients < 2 ^ 64)
    (run : (program clients).Runs log s) :
    (∀ op ∈ (program clients).operations s, op.isEnabled = true →
      ((program clients).execute s op.id).Completes) ∧
    log.length ≤ 9 * clients + 1 ∧
    ((∀ op ∈ (program clients).operations s, op.isEnabled = false) ↔
      log.length = 9 * clients + 1) ∧
    (log.length = 9 * clients + 1 →
      (∀ a ∈ s, a.inbox = [] ∧ a.outbox = []) ∧
      (∀ client, IsClient clients client →
        (∃ a written, s[client]? = some a ∧ a.role = .client written true) ∧
        ∀ kind, total (takings kind client) log = 1) ∧
      total (·.notices.countP isTaken) log = 4 * clients) := by
  obtain ⟨length, routed, -⟩ := invariant_of_runs (P := fun _ _ => True) one few trivial
    (fun _ _ _ _ _ => trivial) run
  have small : s.length ≤ 2 ^ 64 := by omega
  have steps : log.length + weight ahead s = 9 * clients + 1 := by
    have sum := settles_ahead.total_add_weight one few run
    rw [weight_ahead_start] at sum
    rwa [total, List.map_const', List.sum_replicate, smul_eq_mul, mul_one] at sum
  have done : weight ahead s = 0 ↔ log.length = 9 * clients + 1 := by omega
  refine ⟨fun op => completes_of_isEnabled small length routed, by omega, ?_, fun last => ?_⟩
  · exact none_enabled_iff.trans (weight_ahead_eq_zero_iff.symm.trans done)
  have quiet := weight_ahead_eq_zero_iff.mp (done.mpr last)
  have gone : ∀ w, weight w s = 0 := fun w =>
    weight_eq_zero_iff.mpr fun i a get => (quiet i a get).weight_eq_zero
  have taken : ∀ client, IsClient clients client → ∀ kind, total (takings kind client) log = 1 := by
    intro client h kind
    have sum := (settles_conversing kind h).total_add_weight one few run
    rwa [gone, weight_conversing_start h] at sum
  refine ⟨fun a mem => ?_, fun client h => ⟨?_, taken client h⟩, ?_⟩
  · obtain ⟨i, get⟩ := List.mem_iff_getElem?.mp mem
    exact (quiet i a get).2.symm
  · obtain ⟨a, get⟩ : ∃ a, s[client]? = some a :=
      ⟨_, List.getElem?_eq_getElem (length ▸ Nat.lt_succ_of_le h.2)⟩
    have finished := isFinished_of_takings one few run client a get
      ((taken client h .value).symm ▸ Nat.one_pos)
    cases role : a.role with
    | server register =>
      exact absurd ((routed client a get).role.mp ⟨register, role⟩) h.ne
    | client written done =>
      rw [role] at finished
      obtain rfl : done = true := finished
      exact ⟨a, written, get, role⟩
  · have sum := settles_toBeTaken.total_add_weight one few run
    rwa [gone, weight_toBeTaken_start] at sum

/-- One client alone with the server is finished after ten steps. -/
theorem completes_with_one_client :
    1 < 2 ^ 64 ∧ ∃ log s, (program 1).Runs log s ∧ log.length = 10 ∧
      (∀ op ∈ (program 1).operations s, op.isEnabled = false) ∧
      (∀ kind, total (takings kind 1) log = 1) ∧ total (·.notices.countP isTaken) log = 4 := by
  have few : 1 < 2 ^ 64 := by decide
  have r₀ : (program 1).Runs [] (start 1) := .initial
  -- The client and the server start, and then every message is sent and taken.
  have r₁ := r₀.step (List.mem_of_getElem? (i := 1) rfl) (by decide +kernel)
    (.chooseInt (n := 3) .done)
  have r₂ := r₁.step (List.mem_of_getElem? (i := 0) rfl) (by decide +kernel) .done
  have r₃ := r₂.step (List.mem_of_getElem? (i := 1) rfl) (by decide +kernel) (.send .done)
  have r₄ := r₃.step (List.mem_of_getElem? (i := 0) rfl) (by decide +kernel) (.dequeue .done)
  have r₅ := r₄.step (List.mem_of_getElem? (i := 0) rfl) (by decide +kernel) (.send .done)
  have r₆ := r₅.step (List.mem_of_getElem? (i := 1) rfl) (by decide +kernel) (.dequeue .done)
  have r₇ := r₆.step (List.mem_of_getElem? (i := 1) rfl) (by decide +kernel) (.send .done)
  have r₈ := r₇.step (List.mem_of_getElem? (i := 0) rfl) (by decide +kernel) (.dequeue .done)
  have r₉ := r₈.step (List.mem_of_getElem? (i := 0) rfl) (by decide +kernel) (.send .done)
  have r₁₀ := r₉.step (List.mem_of_getElem? (i := 1) rfl) (by decide +kernel) (.dequeue .done)
  obtain ⟨-, -, ends, last⟩ := completes_of_runs (Nat.le_refl 1) few r₁₀
  obtain ⟨-, clients, all⟩ := last rfl
  exact ⟨few, _, _, r₁₀, rfl, ends.mpr rfl, (clients 1 ⟨Nat.one_pos, Nat.le_refl 1⟩).2, all⟩

end Interleaving.RegisterRace
