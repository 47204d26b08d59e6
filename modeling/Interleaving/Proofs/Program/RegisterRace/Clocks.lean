import Mathlib
import Interleaving.Proofs.Program.RegisterRace.Steps

/-!
# Clocks of the register race

In every run, the clocks of two sends of different actors are concurrent if and only if neither of
them happens before the other (`concurrent_iff_not_happensBefore`). At each moment an actor's clock
reflects what its steps know, and the clock of a message that is in an inbox reflects the past of the
step that has sent it (`Informed`).
-/

namespace Interleaving.RegisterRace

open LoggedStep

variable {clients : Nat} {s s' : State} {i : ActorId} {a : Actor} {notices : List Notice}
variable {log : List LoggedStep} {step : LoggedStep} {c : VectorClock}

/-- The clock of an actor after its step. It merges the clock of the message that it takes. -/
inductive Ticked (step : LoggedStep) (i : ActorId) (a : Actor) : VectorClock → Prop where
  | alone :
    (∀ receiver, step.takes receiver = 0) →
    Ticked step i a (a.clock.increment (actorName i))
  | informed {m : Message} {inbox : List Message} :
    a.inbox = m :: inbox →
    (∀ receiver, step.takes receiver = if actorName i = receiver then 1 else 0) →
    Ticked step i a ((a.clock.merge m.clock).increment (actorName i))

/-- What becomes of the actor `j` at a step of the actor `i`, which has the clock `c` now. Messages are
taken from the front of an inbox, and with that clock they arrive at the back. -/
structure Becomes (step : LoggedStep) (i : ActorId) (c : VectorClock) (j : ActorId) (b b' : Actor) :
    Prop where
  clock : b'.clock = if j = i then c else b.clock
  taken : step.takes (actorName j) ≤ b.inbox.length
  inbox : ∃ arrived : List Message, b'.inbox = b.inbox.drop (step.takes (actorName j)) ++ arrived ∧
    arrived.length = step.sends (actorName j) ∧ ∀ m ∈ arrived, m.clock = c

/-- The effect of a step on clocks and inboxes. -/
structure Effect (step : LoggedStep) (s : State) (i : ActorId) (a : Actor) (c : VectorClock)
    (s' : State) : Prop where
  ticked : Ticked step i a c
  sent : ∀ {sender location receiver d}, .sent sender location receiver d ∈ step.notices →
    sender = actorName i ∧ d = c
  becomes : ∀ {j b'}, s'[j]? = some b' → ∃ b, s[j]? = some b ∧ Becomes step i c j b b'

section Effects

variable {j : ActorId} {b b' : Actor}

/-- An actor that neither sends nor takes a message stays as it is, but for its clock. -/
lemma Becomes.of_inbox_eq (takes : step.takes (actorName j) = 0)
    (sends : step.sends (actorName j) = 0) (clock : b'.clock = if j = i then c else b.clock)
    (inbox : b'.inbox = b.inbox) :
    Becomes step i c j b b' := by
  refine ⟨clock, by rw [takes]; exact Nat.zero_le _, [], ?_, sends.symm, fun m h => by cases h⟩
  rw [takes, inbox, List.drop_zero, List.append_nil]

lemma exists_becomes_set (get : s[i]? = some a) (own : Becomes step i c i a b)
    (others : ∀ receiver, actorName i ≠ receiver → step.takes receiver = 0 ∧ step.sends receiver = 0)
    (get' : (s.set i b)[j]? = some b') : ∃ b₀, s[j]? = some b₀ ∧ Becomes step i c j b₀ b' := by
  rcases getElem?_set_cases get' with ⟨rfl, rfl⟩ | ⟨ne, get'⟩
  · exact ⟨a, get, own⟩
  · have ⟨takes, sends⟩ := others (actorName j) fun e => ne (actorName_injective e).symm
    exact ⟨b', get', .of_inbox_eq takes sends (if_neg ne).symm rfl⟩

lemma onMessage_clock (i : ActorId) (a : Actor) (m : Message) :
    (a.onMessage i m).1.clock = a.clock := by
  obtain ⟨role, answer, e, _⟩ := a.onMessage_eq i m
  rw [e]

lemma onMessage_inbox (i : ActorId) (a : Actor) (m : Message) :
    (a.onMessage i m).1.inbox = a.inbox := by
  obtain ⟨role, answer, e, _⟩ := a.onMessage_eq i m
  rw [e]

/-- The first step of an actor only ticks its clock. -/
lemma exists_effect_start (get : s[i]? = some a) (clock : b.clock = a.clock.increment (actorName i))
    (inbox : b.inbox = a.inbox) : ∃ c, Effect ⟨actorName i, []⟩ s i a c (s.set i b) := by
  refine ⟨_, .alone fun _ => rfl, fun mem => absurd mem List.not_mem_nil, fun get' => ?_⟩
  refine exists_becomes_set get ?_ (fun _ _ => ⟨rfl, rfl⟩) get'
  exact .of_inbox_eq rfl rfl (clock.trans (if_pos rfl).symm) inbox

/-- A message arrives at the back of an inbox, which may be any. -/
lemma exists_effect_send {m : Message} {location : UInt32} {receiver : ActorId}
    (get : s[i]? = some a) (clock : b.clock = a.clock.increment (actorName i))
    (inbox : b.inbox = a.inbox) (stamp : m.clock = a.clock.increment (actorName i)) :
    ∃ c, Effect ⟨actorName i, [.sent (actorName i) location (actorName receiver) m.clock]⟩ s i a c
      ((s.set i b).modify receiver fun r => { r with inbox := r.inbox ++ [m] }) := by
  have sends : ∀ name, sends name ⟨actorName i, [.sent (actorName i) location (actorName receiver)
      m.clock]⟩ = if actorName receiver = name then 1 else 0 := by
    intro name
    simp [LoggedStep.sends, Notice.isSentTo, List.countP_cons]
  refine ⟨_, .alone fun _ => rfl, fun mem => ?_, fun {j b'} get' => ?_⟩
  · cases List.mem_singleton.mp mem
    exact ⟨rfl, stamp⟩
  rw [List.getElem?_modify] at get'
  obtain ⟨r, got, rfl⟩ := Option.map_eq_some_iff.mp get'
  -- But for the message, the receiver is as it was.
  obtain ⟨r₀, get₀, clock, inbox⟩ : ∃ r₀, s[j]? = some r₀ ∧
      r.clock = (if j = i then a.clock.increment (actorName i) else r₀.clock) ∧
      r.inbox = r₀.inbox := by
    rcases getElem?_set_cases got with ⟨rfl, rfl⟩ | ⟨ne, got⟩
    · exact ⟨a, get, clock.trans (if_pos rfl).symm, inbox⟩
    · exact ⟨r, got, (if_neg ne).symm, rfl⟩
  refine ⟨r₀, get₀, ?_⟩
  split_ifs with e
  · subst e
    refine ⟨clock, Nat.zero_le _, [m], congrArg (· ++ [m]) inbox, ?_, fun m' mem => ?_⟩
    · rw [sends, if_pos rfl, List.length_singleton]
    · rw [List.mem_singleton.mp mem, stamp]
  · refine .of_inbox_eq rfl ?_ clock inbox
    rw [sends, if_neg fun h => e (actorName_injective h)]

/-- The first message of an inbox is taken, whatever is made of it. -/
lemma exists_effect_take {m : Message} {inbox : List Message} {event : Event}
    (get : s[i]? = some a) (full : a.inbox = m :: inbox)
    (bugs : ∀ notice ∈ notices, ∃ message, notice = .bug message)
    (clock : b.clock = (a.clock.merge m.clock).increment (actorName i)) (rest : b.inbox = inbox) :
    ∃ c, Effect ⟨actorName i, .taken (actorName i) event :: notices⟩ s i a c (s.set i b) := by
  have takes : ∀ name, takes name ⟨actorName i, .taken (actorName i) event :: notices⟩ =
      if actorName i = name then 1 else 0 := by
    intro name
    have none := countP_eq_zero_of_bugs bugs (p := Notice.isTakenBy name) fun _ => rfl
    simp [LoggedStep.takes, Notice.isTakenBy, List.countP_cons, none]
  have sends : ∀ name, sends name ⟨actorName i, .taken (actorName i) event :: notices⟩ = 0 := by
    intro name
    have none := countP_eq_zero_of_bugs bugs (p := Notice.isSentTo name) fun _ => rfl
    simp [LoggedStep.sends, Notice.isSentTo, none]
  refine ⟨_, .informed full takes, fun mem => ?_, fun get' => ?_⟩
  · rcases List.mem_cons.mp mem with e | mem
    · cases e
    · obtain ⟨_, e⟩ := bugs _ mem
      cases e
  refine exists_becomes_set get ⟨clock.trans (if_pos rfl).symm, ?_, [], ?_, ?_, ?_⟩
    (fun name ne => ?_) get'
  · rw [takes, if_pos rfl, full]
    exact Nat.succ_le_succ (Nat.zero_le _)
  · rw [rest, takes, if_pos rfl, full, List.append_nil]
    rfl
  · rw [sends]
    rfl
  · exact fun m mem => absurd mem List.not_mem_nil
  · rw [takes, sends, if_neg ne]
    exact ⟨rfl, rfl⟩

lemma Stepped.exists_effect (h : Stepped s i a notices s') (get : s[i]? = some a) :
    ∃ c, Effect ⟨actorName i, notices⟩ s i a c s' := by
  cases h with
  | send full => exact exists_effect_send (m := ⟨_, i, _, _⟩) get rfl rfl rfl
  | startServer fresh role => exact exists_effect_start get rfl rfl
  | startClient fresh role => exact exists_effect_start get rfl rfl
  | take full bugs =>
    exact exists_effect_take get full bugs (onMessage_clock ..) (onMessage_inbox ..)

end Effects

/-- The clock of a send reflects the past of its step, that of an actor what its steps know, and that of
a message in an inbox the past of the step that has sent it. -/
structure Informed (log : List LoggedStep) (s : State) : Prop where
  sent : ∀ {k sender location receiver c}, TellsAt log k (.sent sender location receiver c) →
    ActsAt log k sender ∧ Reflects log (past log k) c
  clock : ∀ {i a}, s[i]? = some a → Reflects log (known log (actorName i)) a.clock
  inbox : ∀ {i a}, s[i]? = some a → Mailbox log (actorName i) (a.inbox.map (·.clock))

lemma informed_start : Informed [] (start clients) := by
  have fresh : Each (fun _ a => a.clock = .empty ∧ a.inbox = []) (start clients) := by
    intro i a get
    rcases List.mem_cons.mp (List.mem_of_getElem? get) with rfl | mem
    · exact ⟨rfl, rfl⟩
    · rw [List.eq_of_mem_replicate mem]
      exact ⟨rfl, rfl⟩
  constructor
  case sent =>
    rintro k sender location receiver c ⟨step, get, _⟩
    cases get
  case clock =>
    intro i a get
    have none : known [] (actorName i) = ∅ := by
      ext k
      exact ⟨fun mem => absurd (lt_length_of_mem_known mem) (Nat.not_lt_zero k), fun mem => mem.elim⟩
    rw [(fresh i a get).1, none]
    exact .empty
  case inbox =>
    intro i a get
    rw [(fresh i a get).2]
    exact .nil

/-- The new clock reflects the past of the step. -/
lemma Informed.reflects (I : Informed log s) (get : s[i]? = some a) (E : Effect step s i a c s')
    (actor : step.actor = actorName i) (fits : total (ofActor step.actor) log + 1 < 2 ^ 64) :
    Reflects (log ++ [step]) (past (log ++ [step]) log.length) c := by
  have own := I.clock get
  rw [← actor] at own
  cases E.ticked with
  | alone none =>
    rw [past_last_of_none none, ← actor]
    exact own.increment (fun k acts => mem_known_of_actsAt acts) fits
  | @informed m inbox full one =>
    rw [← actor] at one
    have first : (a.inbox.map (·.clock))[0]? = some m.clock := by
      rw [full, List.map_cons, List.getElem?_cons_zero]
    obtain ⟨k, sent, reflects⟩ := (I.inbox get).waiting first
    rw [Nat.add_zero, ← actor] at sent
    rw [past_last_of_take one sent, ← actor]
    exact (own.merge reflects).increment (fun k acts => .inl (mem_known_of_actsAt acts)) fits

lemma Informed.concat (I : Informed log s) (get : s[i]? = some a) (E : Effect step s i a c s')
    (actor : step.actor = actorName i) (fits : total (ofActor step.actor) log + 1 < 2 ^ 64) :
    Informed (log ++ [step]) s' := by
  have reflects := I.reflects get E actor fits
  constructor
  case sent =>
    intro k sender location receiver d tells
    rcases tellsAt_concat.mp tells with ⟨tells, lt⟩ | ⟨rfl, mem⟩
    · obtain ⟨acts, reflects⟩ := I.sent tells
      exact ⟨(actsAt_append lt).mpr acts, reflects.past_concat lt⟩
    · obtain ⟨rfl, rfl⟩ := E.sent mem
      exact ⟨actsAt_last.mpr actor, reflects⟩
  case clock =>
    intro j b' get'
    obtain ⟨b, get', becomes⟩ := E.becomes get'
    rw [becomes.clock]
    split_ifs with e
    · rw [e, ← actor, known_concat_self]
      exact reflects
    · have ne : step.actor ≠ actorName j := fun h => e (actorName_injective (actor ▸ h)).symm
      rw [known_concat_of_ne ne]
      exact (I.clock get').concat fun k mem => lt_length_of_mem_known mem
  case inbox =>
    intro j b' get'
    obtain ⟨b, get', becomes⟩ := E.becomes get'
    obtain ⟨arrived, inbox, length, clocks⟩ := becomes.inbox
    rw [inbox, List.map_append, List.map_drop]
    refine (I.inbox get').concat ?_ ?_ fun c mem => ?_
    · rw [List.length_map]
      exact becomes.taken
    · rw [List.length_map]
      exact length
    · obtain ⟨m, arrives, rfl⟩ := List.mem_map.mp mem
      rwa [clocks m arrives]

/-- With this many clients no counter overflows, since no actor has more than four steps for each client
and one more. -/
lemma informed_of_runs (few : clients < 2 ^ 62) (run : (program clients).Runs log s) :
    Kept clients log s ∧ Informed log s := by
  induction run with
  | initial => exact ⟨kept_start, informed_start⟩
  | @step log s s' op notices run mem enabled tells ih =>
    obtain ⟨K, I⟩ := ih
    have small : s.length ≤ 2 ^ 64 := by
      rw [K.length]
      omega
    obtain ⟨i, a, get, actor, stepped⟩ := stepped_of_tells small mem tells
    obtain ⟨c, E⟩ := stepped.exists_effect get
    rw [actor]
    have K' := K.concat get stepped
    refine ⟨K', I.concat get E rfl ?_⟩
    have bound := K'.steps_le i
    rw [total_concat, ofActor, if_pos rfl] at bound
    show total (ofActor (actorName i)) log + 1 < 2 ^ 64
    omega

/-- The clocks of two sends of different actors are concurrent if and only if neither of the two happens
before the other. With more clients, the longest runs would overflow the counter of the server, which
takes four steps for each client. -/
theorem concurrent_iff_not_happensBefore (few : clients < 2 ^ 62)
    (run : (program clients).Runs log s) {k l : Nat} {x y r r' : String} {p p' : UInt32}
    {c d : VectorClock} (sent : TellsAt log k (.sent x p r c))
    (sent' : TellsAt log l (.sent y p' r' d)) (different : x ≠ y) :
    c.concurrent d = true ↔ ¬ HappensBefore log k l ∧ ¬ HappensBefore log l k := by
  obtain ⟨_, I⟩ := informed_of_runs few run
  obtain ⟨acts, reflects⟩ := I.sent sent
  obtain ⟨acts', reflects'⟩ := I.sent sent'
  refine reflects.concurrent_iff reflects' acts.lt_length acts'.lt_length ?_
  rintro rfl
  exact different (acts.unique acts')

/-- A client's write and the server's acknowledgement of it, two and five steps into a run. -/
theorem concurrent_iff_of_write_and_ack :
    let c := VectorClock.ofList [("client0", 2)]
    let d := VectorClock.ofList [("client0", 2), ("server", 3)]
    2 < 2 ^ 62 ∧ "client0" ≠ "server" ∧ ∃ log s, (program 2).Runs log s ∧
      TellsAt log 1 (.sent "client0" 1 "server" c) ∧ TellsAt log 4 (.sent "server" 10 "client0" d) ∧
      (c.concurrent d = true ↔ ¬ HappensBefore log 1 4 ∧ ¬ HappensBefore log 4 1) := by
  intro c d
  -- The client starts and writes, and the server starts, takes the message and answers.
  have r₀ : (program 2).Runs [] (start 2) := .initial
  have r₁ := r₀.step (List.mem_of_getElem? (i := 1) rfl) (by decide +kernel)
    (.chooseInt (n := 3) .done)
  have r₂ := r₁.step (List.mem_of_getElem? (i := 1) rfl) (by decide +kernel) (.send .done)
  have r₃ := r₂.step (List.mem_of_getElem? (i := 0) rfl) (by decide +kernel) .done
  have r₄ := r₃.step (List.mem_of_getElem? (i := 0) rfl) (by decide +kernel)
    (.dequeue .done)
  have r₅ := r₄.step (List.mem_of_getElem? (i := 0) rfl) (by decide +kernel) (.send .done)
  obtain ⟨log, s, run, sent, sent'⟩ : ∃ log s, (program 2).Runs log s ∧
      TellsAt log 1 (.sent "client0" 1 "server" c) ∧ TellsAt log 4 (.sent "server" 10 "client0" d) :=
    ⟨_, _, r₅, ⟨_, rfl, by decide +kernel⟩, ⟨_, rfl, by decide +kernel⟩⟩
  exact ⟨by decide, by decide, log, s, run, sent, sent',
    concurrent_iff_not_happensBefore (by decide) run sent sent' (by decide)⟩

end Interleaving.RegisterRace
