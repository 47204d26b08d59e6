import Mathlib
import Interleaving.Proofs.Program.RegisterRace.Turns

/-!
# Lost writes

A client complains if and only if its value was lost: between the server's taking its Write and its Read,
the server has taken the Write of another client, and the last of these is what the client has read
(`reports_iff_overwritten`).

The register holds what the last Write has brought, and each message on its way has behind it the messages
of its conversation that were taken before (`Backed`). So the value that comes back to a client is that of
the last Write before its Read, which is its own or comes later. As the values of different clients are
different, the client sees the difference.
-/

namespace Interleaving.RegisterRace

open LoggedStep

variable {clients : Nat} {s s' : State} {c d : ActorId} {notices : List Notice} {actor : String}
variable {log : List LoggedStep} {kind : MessageKind} {u v x : UInt64} {k : Nat} {p : Packet}
variable {message : String}

/-- The client has chosen what to write. -/
def HasWritten (s : State) (client : ActorId) (u : UInt64) : Prop :=
  ∃ done, roleOf s client = some (.client (some u) done)

/-- The last Write that was taken has brought the value. -/
def LastWrite (log : List LoggedStep) (v : UInt64) : Prop :=
  ∃ j client, Takes log j .write client v ∧ ∀ j' client' v', j < j' → ¬Takes log j' .write client' v'

/-- The client has read a value, and this is that of the last Write before it. -/
structure HasRead (log : List LoggedStep) (s : State) (client : ActorId) (u v : UInt64) (w r : Nat) :
    Prop where
  written : HasWritten s client u
  write : Takes log w .write client u
  order : w < r
  read : ∃ x, Takes log r .read client x
  last : LastWrite (log.take r) v

/-- What has come before a message that is on its way in the conversation of a client. -/
def Backed (log : List LoggedStep) (s : State) (client : ActorId) : MessageKind → UInt64 → Prop
  | .write, v => HasWritten s client v
  | .ack, _ | .read, _ => ∃ w u, HasWritten s client u ∧ Takes log w .write client u
  | .value, v => ∃ w r u, HasRead log s client u v w r

section Turns

lemma bug_mem_complaint {written : Option UInt64} : .bug message ∈ complaint c written v ↔
    written ≠ some v ∧ message = s!"{actorName c} read {v} after writing {written.getD 0}" := by
  rw [complaint]
  split
  · next same => exact iff_of_false List.not_mem_nil fun h => h.1 same
  · next other => rw [List.mem_singleton, Notice.bug.injEq, and_iff_right other]

lemma exists_of_mem_complaint {written : Option UInt64} {notice : Notice}
    (mem : notice ∈ complaint c written v) : ∃ message, notice = .bug message := by
  rw [complaint] at mem
  split at mem
  · cases mem
  · exact ⟨_, List.mem_singleton.mp mem⟩

/-- A step has taken the message, which was on its way, and tells of nothing else but bugs. -/
structure Took (s s' : State) (notices : List Notice) (kind : MessageKind) (client : ActorId)
    (v : UInt64) : Prop where
  onWay : OnWay s (packet kind client v)
  register : kind = .write → roleOf s' server = some (.server v)
  told : ∃ bugs : List Notice, notices = taking kind client v :: bugs ∧
    (∀ notice ∈ bugs, ∃ message, notice = .bug message) ∧
    (kind = .value → ∃ written done, roleOf s client = some (.client written done) ∧
      bugs = complaint client written v)

lemma Turn.took (turn : Turn s s' notices) (mem : taking kind c v ∈ notices) :
    Took s s' notices kind c v := by
  have silent : ∀ notice ∈ ([] : List Notice), ∃ message, notice = .bug message :=
    fun _ mem => absurd mem List.not_mem_nil
  cases turn with
  | quiet sends _ _ =>
    obtain ⟨_, _, _, _, e⟩ := sends _ mem
    cases e
  | start => cases mem
  | write onWay _ roles _ =>
    obtain ⟨rfl, rfl, rfl⟩ := taking_injective (List.mem_singleton.mp mem)
    exact ⟨onWay, fun _ => by rw [roles, Function.update_self], [], rfl, silent, nofun⟩
  | ack onWay _ _ =>
    obtain ⟨rfl, rfl, rfl⟩ := taking_injective (List.mem_singleton.mp mem)
    exact ⟨onWay, nofun, [], rfl, silent, nofun⟩
  | read onWay _ _ _ =>
    obtain ⟨rfl, rfl, rfl⟩ := taking_injective (List.mem_singleton.mp mem)
    exact ⟨onWay, nofun, [], rfl, silent, nofun⟩
  | value onWay own _ _ =>
    rcases List.mem_cons.mp mem with e | mem
    · obtain ⟨rfl, rfl, rfl⟩ := taking_injective e
      exact ⟨onWay, nofun, _, rfl, fun _ => exists_of_mem_complaint, fun _ => ⟨_, _, own, rfl⟩⟩
    · obtain ⟨_, e⟩ := exists_of_mem_complaint mem
      cases e

/-- No step takes two messages. -/
lemma Turn.taking_unique {kind' : MessageKind} (turn : Turn s s' notices)
    (mem : taking kind c v ∈ notices) (mem' : taking kind' d x ∈ notices) :
    kind = kind' ∧ c = d ∧ v = x := by
  obtain ⟨bugs, rfl, only, -⟩ := (turn.took mem).told
  rcases List.mem_cons.mp mem' with e | mem'
  · obtain ⟨rfl, rfl, rfl⟩ := taking_injective e
    exact ⟨rfl, rfl, rfl⟩
  · obtain ⟨_, e⟩ := only _ mem'
    cases e

/-- A register that no Write has been taken for has not changed. -/
lemma Turn.register (turn : Turn s s' notices) (none : ∀ c v, taking .write c v ∉ notices)
    (role : roleOf s' server = some (.server x)) : roleOf s server = some (.server x) := by
  have kept {client : ActorId} {written : Option UInt64} {done : Bool}
      (roles : roleOf s' = Function.update (roleOf s) client (some (.client written done))) :
      roleOf s server = some (.server x) := by
    rw [roles, Function.update_apply] at role
    split at role
    · cases role
    · exact role
  cases turn with
  | quiet _ roles _ => exact roles ▸ role
  | start _ _ roles _ => exact kept roles
  | write => exact absurd List.mem_cons_self (none _ _)
  | ack _ roles _ => exact roles ▸ role
  | read _ _ roles _ => exact roles ▸ role
  | value _ _ roles _ => exact kept roles

lemma Turn.taking_of_bug (turn : Turn s s' notices) (mem : .bug message ∈ notices) :
    ∃ c v, taking .value c v ∈ notices := by
  cases turn with
  | quiet sends _ _ =>
    obtain ⟨_, _, _, _, e⟩ := sends _ mem
    cases e
  | start => cases mem
  | write => cases List.mem_singleton.mp mem
  | ack => cases List.mem_singleton.mp mem
  | read => cases List.mem_singleton.mp mem
  | value => exact ⟨_, _, List.mem_cons_self⟩

lemma Turn.hasWritten (turn : Turn s s' notices) (h : HasWritten s c u) : HasWritten s' c u := by
  obtain ⟨done, role⟩ := h
  cases turn with
  | quiet _ roles _ => exact ⟨done, roles ▸ role⟩
  | @start d _ _ _ fresh roles _ =>
    have ne : c ≠ d := by
      rintro rfl
      cases fresh.symm.trans role
    exact ⟨done, by rw [roles, Function.update_of_ne ne, role]⟩
  | write _ own roles _ =>
    have ne : c ≠ server := by
      rintro rfl
      cases own.symm.trans role
    exact ⟨done, by rw [roles, Function.update_of_ne ne, role]⟩
  | ack _ roles _ => exact ⟨done, roles ▸ role⟩
  | read _ _ roles _ => exact ⟨done, roles ▸ role⟩
  | @value d _ _ _ _ own roles _ =>
    by_cases e : c = d
    · subst e
      cases own.symm.trans role
      exact ⟨true, by rw [roles, Function.update_self]⟩
    · exact ⟨done, by rw [roles, Function.update_of_ne e, role]⟩

/-- A client writes a number of its own. -/
lemma Turn.number (turn : Turn s s' notices) (h : HasWritten s' c u) :
    HasWritten s c u ∨ ∃ n < 10, u = .ofNat c * 100 + n := by
  obtain ⟨done, role⟩ := h
  cases turn with
  | quiet _ roles _ => exact .inl ⟨done, roles ▸ role⟩
  | @start d _ n below _ roles _ =>
    rw [roles, Function.update_apply] at role
    split at role
    · next e =>
      cases role
      exact .inr ⟨n, below, by rw [e]⟩
    · exact .inl ⟨done, role⟩
  | write _ _ roles _ =>
    rw [roles, Function.update_apply] at role
    split at role
    · cases role
    · exact .inl ⟨done, role⟩
  | ack _ roles _ => exact .inl ⟨done, roles ▸ role⟩
  | read _ _ roles _ => exact .inl ⟨done, roles ▸ role⟩
  | value _ own roles _ =>
    rw [roles, Function.update_apply] at role
    split at role
    · next e =>
      cases role
      exact .inl ⟨_, e ▸ own⟩
    · exact .inl ⟨done, role⟩

end Turns

section Records

/-- What a log tells of the state that a run has come to. -/
structure Recorded (log : List LoggedStep) (s : State) : Prop where
  single : ∀ {k kind c v kind' d x}, Takes log k kind c v → Takes log k kind' d x →
    kind = kind' ∧ c = d ∧ v = x
  number : ∀ {c u}, HasWritten s c u → ∃ n < 10, u = .ofNat c * 100 + n
  written : ∀ {k c v}, Takes log k .write c v → HasWritten s c v
  register : ∀ {x k c v}, roleOf s server = some (.server x) → Takes log k .write c v →
    LastWrite log x
  backed : ∀ {kind c v}, OnWay s (packet kind c v) → Backed log s c kind v
  value : ∀ {k message}, TellsAt log k (.bug message) → ∃ c v, Takes log k .value c v
  reports : ∀ {k c v}, Takes log k .value c v → ∃ w r u, HasRead log s c u v w r ∧ r < k ∧
    ∀ message, TellsAt log k (.bug message) ↔
      u ≠ v ∧ message = s!"{actorName c} read {v} after writing {u}"

lemma takes_last (mem : taking kind c v ∈ notices) :
    Takes (log ++ [⟨actor, notices⟩]) log.length kind c v :=
  tellsAt_concat.mpr (.inr ⟨rfl, mem⟩)

lemma Takes.old (h : Takes (log ++ [⟨actor, notices⟩]) k kind c v)
    (none : taking kind c v ∉ notices) : Takes log k kind c v := by
  rcases tellsAt_concat.mp h with ⟨old, _⟩ | ⟨_, mem⟩
  · exact old
  · exact absurd mem none

lemma HasRead.mono {w r : Nat} (h : HasRead log s c u v w r)
    (written : HasWritten s c u → HasWritten s' c u) (more : List LoggedStep) :
    HasRead (log ++ more) s' c u v w r := by
  obtain ⟨x, read⟩ := h.read
  refine ⟨written h.written, h.write.append, h.order, ⟨x, read.append⟩, ?_⟩
  rw [List.take_append_of_le_length read.lt_length.le]
  exact h.last

lemma Backed.mono (h : Backed log s c kind v) (written : ∀ {u}, HasWritten s c u → HasWritten s' c u)
    (more : List LoggedStep) : Backed (log ++ more) s' c kind v := by
  cases kind with
  | write => exact written h
  | ack =>
    obtain ⟨w, u, h, write⟩ := h
    exact ⟨w, u, written h, write.append⟩
  | read =>
    obtain ⟨w, u, h, write⟩ := h
    exact ⟨w, u, written h, write.append⟩
  | value =>
    obtain ⟨w, r, u, read⟩ := h
    exact ⟨w, r, u, read.mono written more⟩

/-- An answer has behind it what its question had, and the question. -/
lemma Recorded.backed_turn (K : Recorded log s) (turn : Turn s s' notices)
    (onWay : OnWay s' (packet kind c v)) : Backed (log ++ [⟨actor, notices⟩]) s' c kind v := by
  have old (onWay : OnWay s (packet kind c v)) : Backed (log ++ [⟨actor, notices⟩]) s' c kind v :=
    (K.backed onWay).mono turn.hasWritten _
  have written {c : ActorId} {u : UInt64} : HasWritten s c u → HasWritten s' c u := turn.hasWritten
  cases turn with
  | quiet _ _ messages => exact old (messages _ onWay)
  | start _ _ roles messages =>
    rcases messages _ onWay with onWay | e
    · exact old onWay
    · obtain ⟨rfl, rfl, rfl⟩ := packet_injective e
      exact ⟨_, by rw [roles, Function.update_self]⟩
  | write question _ _ messages =>
    rcases messages _ onWay with onWay | e
    · exact old onWay
    · obtain ⟨rfl, rfl, rfl⟩ := packet_injective e
      exact ⟨log.length, _, written (K.backed question), takes_last List.mem_cons_self⟩
  | ack question _ messages =>
    rcases messages _ onWay with onWay | e
    · exact old onWay
    · obtain ⟨rfl, rfl, rfl⟩ := packet_injective e
      exact (K.backed question).mono written _
  | read question register _ messages =>
    rcases messages _ onWay with onWay | e
    · exact old onWay
    · obtain ⟨rfl, rfl, rfl⟩ := packet_injective e
      obtain ⟨w, u, h, write⟩ := K.backed question
      refine ⟨w, log.length, u, written h, write.append, write.lt_length,
        ⟨_, takes_last List.mem_cons_self⟩, ?_⟩
      rw [List.take_left]
      exact K.register register write
  | value _ _ _ messages => exact old (messages _ onWay)

/-- The register holds what the last Write has brought. -/
lemma Recorded.register_turn (K : Recorded log s) (turn : Turn s s' notices)
    (role : roleOf s' server = some (.server x))
    (write : Takes (log ++ [⟨actor, notices⟩]) k .write c v) :
    LastWrite (log ++ [⟨actor, notices⟩]) x := by
  by_cases new : ∃ c v, taking .write c v ∈ notices
  · obtain ⟨d, y, mem⟩ := new
    obtain rfl : y = x := by
      cases ((turn.took mem).register rfl).symm.trans role
      rfl
    refine ⟨log.length, d, takes_last mem, fun j client v' lt later => ?_⟩
    have := later.lt_length
    rw [List.length_append, List.length_singleton] at this
    omega
  · have none : ∀ c v, taking .write c v ∉ notices := fun c v mem => new ⟨c, v, mem⟩
    obtain ⟨j, client, last, none'⟩ := K.register (turn.register none role) (write.old (none c v))
    exact ⟨j, client, last.append, fun j' client' v' lt later => none' j' client' v' lt
      (later.old (none client' v'))⟩

lemma Recorded.reports_turn (K : Recorded log s) (turn : Turn s s' notices)
    (mem : taking .value c v ∈ notices) :
    ∃ w r u, HasRead (log ++ [⟨actor, notices⟩]) s' c u v w r ∧ r < log.length ∧
      ∀ message, TellsAt (log ++ [⟨actor, notices⟩]) log.length (.bug message) ↔
        u ≠ v ∧ message = s!"{actorName c} read {v} after writing {u}" := by
  have took := turn.took mem
  obtain ⟨w, r, u, read⟩ := K.backed took.onWay
  obtain ⟨x, request⟩ := read.read
  refine ⟨w, r, u, read.mono turn.hasWritten _, request.lt_length, fun message => ?_⟩
  obtain ⟨bugs, rfl, -, complains⟩ := took.told
  obtain ⟨written, done, own, rfl⟩ := complains rfl
  obtain ⟨_, own'⟩ := read.written
  cases own'.symm.trans own
  rw [tellsAt_concat, and_iff_right rfl, or_iff_right fun h => Nat.lt_irrefl _ h.2, List.mem_cons,
    or_iff_right nofun, bug_mem_complaint, Option.getD_some, Ne, Option.some_inj]

lemma Recorded.concat (K : Recorded log s) (turn : Turn s s' notices) :
    Recorded (log ++ [⟨actor, notices⟩]) s' where
  single h h' := by
    rcases tellsAt_concat.mp h with ⟨old, lt⟩ | ⟨rfl, mem⟩
    · exact K.single old ((tellsAt_concat.mp h').resolve_right fun last => lt.ne last.1).1
    · exact turn.taking_unique mem
        ((tellsAt_concat.mp h').resolve_left fun old => Nat.lt_irrefl _ old.2).2
  number h := by
    rcases turn.number h with old | new
    · exact K.number old
    · exact new
  written h := by
    rcases tellsAt_concat.mp h with ⟨old, _⟩ | ⟨_, mem⟩
    · exact turn.hasWritten (K.written old)
    · exact turn.hasWritten (K.backed (turn.took mem).onWay)
  register := K.register_turn turn
  backed := K.backed_turn turn
  value h := by
    rcases tellsAt_concat.mp h with ⟨old, _⟩ | ⟨rfl, mem⟩
    · obtain ⟨c, v, value⟩ := K.value old
      exact ⟨c, v, value.append⟩
    · obtain ⟨c, v, mem⟩ := turn.taking_of_bug mem
      exact ⟨c, v, takes_last mem⟩
  reports h := by
    rcases tellsAt_concat.mp h with ⟨old, lt⟩ | ⟨rfl, mem⟩
    · obtain ⟨w, r, u, read, before, told⟩ := K.reports old
      refine ⟨w, r, u, read.mono turn.hasWritten _, before, fun message => ?_⟩
      rw [← told, tellsAt_concat, or_iff_left fun last => lt.ne last.1, and_iff_left lt]
    · exact K.reports_turn turn mem

lemma takes_nil : ¬Takes [] k kind c v := fun h => Nat.not_lt_zero k h.lt_length

lemma recorded_start : Recorded [] (start clients) := by
  have idle : ∀ {i : ActorId} {a : Actor}, (start clients)[i]? = some a → ∃ role, a = Actor.ofRole role ∧
      ∀ u done, role ≠ Role.client (some u) done := by
    intro i a get
    rcases List.mem_cons.mp (List.mem_of_getElem? get) with rfl | mem
    · exact ⟨_, rfl, nofun⟩
    · exact ⟨_, List.eq_of_mem_replicate mem, nofun⟩
  have unwritten : ∀ {c u}, ¬HasWritten (start clients) c u := by
    rintro c u ⟨done, role⟩
    obtain ⟨a, get, role⟩ := Option.map_eq_some_iff.mp role
    obtain ⟨_, rfl, other⟩ := idle get
    exact other u done role
  refine ⟨fun h => absurd h takes_nil, fun h => absurd h unwritten, fun h => absurd h takes_nil,
    fun _ h => absurd h takes_nil, fun onWay => ?_, fun ⟨_, get, _⟩ => ?_,
    fun h => absurd h takes_nil⟩
  · obtain ⟨i, a, get, holds⟩ := onWay
    obtain ⟨_, rfl, -⟩ := idle get
    rcases holds with ⟨_, mem⟩ | ⟨_, _, mem⟩
    · cases mem
    · cases mem
  · cases get

lemma recorded_of_runsInRange (one : 1 ≤ clients) (few : clients < 2 ^ 64)
    (run : (program clients).RunsInRange log s) : Recorded log s := by
  induction run with
  | initial => exact recorded_start
  | step run mem enabled tells ih =>
    obtain ⟨length, routed, -⟩ := invariant_of_runs (P := fun _ _ => True) one few trivial
      (fun _ _ _ _ _ => trivial) run.runs
    exact ih.concat (turn_of_tells (by omega) routed (isFresh_of_runs one few run.runs) mem tells)

end Records

section Overwrites

/-- At the step `j`, which is between `w` and `r`, the Write of another client is taken. -/
def Overwrites (log : List LoggedStep) (client : ActorId) (w r j : Nat) (v : UInt64) : Prop :=
  w < j ∧ j < r ∧ ∃ other, other ≠ client ∧ Takes log j .write other v

variable {w r i j : Nat}

lemma isClient_of_hasWritten (one : 1 ≤ clients) (few : clients < 2 ^ 64)
    (run : (program clients).Runs log s) (h : HasWritten s c u) : IsClient clients c := by
  obtain ⟨length, routed, -⟩ := invariant_of_runs (P := fun _ _ => True) one few trivial
    (fun _ _ _ _ _ => trivial) run
  obtain ⟨done, role⟩ := h
  obtain ⟨a, get, role⟩ := Option.map_eq_some_iff.mp role
  have ne : c ≠ server := fun e => Actor.not_isServer (role ▸ (routed c a get).role.mpr e)
  have lt := (List.getElem?_eq_some_iff.mp get).1
  exact ⟨Nat.pos_of_ne_zero ne, Nat.le_of_lt_succ (lt.trans_eq length)⟩

/-- In the conversation of a client, no kind of message is taken twice. -/
lemma Takes.unique_of_runs (one : 1 ≤ clients) (few : clients < 2 ^ 64)
    (run : (program clients).Runs log s) (client : IsClient clients c)
    (hi : Takes log i kind c v) (hj : Takes log j kind c x) : i = j := by
  have sum := (settles_conversing kind client).total_add_weight one few run
  rw [weight_conversing_start client] at sum
  have counted : ∀ {k v}, Takes log k kind c v → ∃ step, log[k]? = some step ∧
      0 < takings kind c step := by
    rintro k v ⟨step, get, mem⟩
    exact ⟨step, get, List.countP_pos_iff.mpr ⟨_, mem, isTaking_event.mpr ⟨rfl, rfl, rfl⟩⟩⟩
  exact eq_of_total_le_one (by omega) (counted hi) (counted hj)

/-- The numbers of different clients are different. -/
lemma eq_of_number {c d : Nat} {n m : UInt64} (few : 100 * clients + 9 < 2 ^ 64) (hc : c ≤ clients)
    (hd : d ≤ clients) (hn : n < 10) (hm : m < 10)
    (e : UInt64.ofNat c * 100 + n = UInt64.ofNat d * 100 + m) : c = d := by
  have value {c : Nat} {n : UInt64} (hc : c ≤ clients) (hn : n < 10) :
      (UInt64.ofNat c * 100 + n).toNat = c * 100 + n.toNat := by
    rw [UInt64.lt_iff_toNat_lt] at hn
    have ten : (10 : UInt64).toNat = 10 := rfl
    have hundred : (100 : UInt64).toNat = 100 := rfl
    have word : (UInt64.ofNat c).toNat = c := UInt64.toNat_ofNat_of_lt' (show c < 2 ^ 64 by omega)
    rw [UInt64.toNat_add, UInt64.toNat_mul, word, hundred, Nat.mod_eq_of_lt (a := c * 100) (by omega),
      Nat.mod_eq_of_lt (by omega)]
  have same := congrArg UInt64.toNat e
  rw [value hc hn, value hd hm] at same
  rw [UInt64.lt_iff_toNat_lt] at hn hm
  have ten : (10 : UInt64).toNat = 10 := rfl
  omega

lemma takes_take : Takes (log.take r) j kind c v ↔ j < r ∧ Takes log j kind c v := by
  rw [Takes, TellsAt, List.getElem?_take]
  split
  · next lt => exact (and_iff_right lt).symm
  · next ge =>
    refine iff_of_false ?_ fun h => ge h.1
    rintro ⟨step, get, -⟩
    cases get

/-- The client has read its own value, and no other Write was taken, or it has read that of the last
Write. -/
lemma Recorded.overwritten (K : Recorded log s) (few : 100 * clients + 9 < 2 ^ 64)
    (one : 1 ≤ clients) (run : (program clients).Runs log s) (read : HasRead log s c u v w r) :
    u = v ∧ (∀ j x, ¬Overwrites log c w r j x) ∨
    u ≠ v ∧ ∃ j, Overwrites log c w r j v ∧ ∀ j' x, Overwrites log c w r j' x → j' ≤ j := by
  have small : clients < 2 ^ 64 := by omega
  obtain ⟨j, d, last, none⟩ := read.last
  obtain ⟨before, last⟩ := takes_take.mp last
  have le : w ≤ j := by
    by_contra lt
    exact none w c u (Nat.lt_of_not_le lt) (takes_take.mpr ⟨read.order, read.write⟩)
  have client := isClient_of_hasWritten one small run read.written
  by_cases own : d = c
  · subst own
    obtain rfl := read.write.unique_of_runs one small run client last
    refine .inl ⟨(K.single read.write last).2.2, ?_⟩
    rintro j' x ⟨after, before, _, _, other⟩
    exact none j' _ x after (takes_take.mpr ⟨before, other⟩)
  · have lt : w < j := by
      refine Nat.lt_of_le_of_ne le ?_
      rintro rfl
      exact own (K.single read.write last).2.1.symm
    refine .inr ⟨?_, j, ⟨lt, before, d, own, last⟩, ?_⟩
    · rintro rfl
      have other := K.written last
      obtain ⟨n, hn, e⟩ := K.number read.written
      obtain ⟨m, hm, e'⟩ := K.number other
      exact own (eq_of_number few (isClient_of_hasWritten one small run other).2 client.2 hm hn
        (e'.symm.trans e))
    · rintro j' x ⟨_, before, _, _, other⟩
      by_contra after
      exact none j' _ x (Nat.lt_of_not_le after) (takes_take.mpr ⟨before, other⟩)

end Overwrites

/-- In every run, a bug is reported only where a client takes its Value, and this is the only one that is
taken in its conversation. Its Write and its Read have been taken before, each at one step, and the bug is
reported if and only if the Write of another client was taken between them. The value that the report names
is that of the last of these. What the clients write has to fit into 64 bits. -/
theorem reports_iff_overwritten (few : 100 * clients + 9 < 2 ^ 64)
    (run : (program clients).RunsInRange log s) :
    (∀ k message, TellsAt log k (.bug message) → ∃ c v, Takes log k .value c v) ∧
    ∀ k c v, Takes log k .value c v → ∃ w r u,
      w < r ∧ r < k ∧
      (∀ j x, Takes log j .write c x ↔ j = w ∧ x = u) ∧
      (∀ j, (∃ x, Takes log j .read c x) ↔ j = r) ∧
      ((∃ message, TellsAt log k (.bug message)) ↔ ∃ j x, Overwrites log c w r j x) ∧
      ∀ message, TellsAt log k (.bug message) →
        message = s!"{actorName c} read {v} after writing {u}" ∧
        ∃ j, Overwrites log c w r j v ∧ ∀ j' x, Overwrites log c w r j' x → j' ≤ j := by
  -- A program has one client at least.
  wlog one : 1 ≤ clients generalizing clients
  · obtain rfl : clients = 0 := by omega
    have few : 100 * 1 + 9 < 2 ^ 64 := by decide
    exact this few run (Nat.le_refl 1)
  have small : clients < 2 ^ 64 := by omega
  have K := recorded_of_runsInRange one small run
  refine ⟨fun k message => K.value, fun k c v value => ?_⟩
  obtain ⟨w, r, u, read, before, told⟩ := K.reports value
  have client := isClient_of_hasWritten one small run.runs read.written
  obtain ⟨y, request⟩ := read.read
  refine ⟨w, r, u, read.order, before, fun j x => ?_, fun j => ?_, ?_, fun message bug => ?_⟩
  · constructor
    · intro write
      obtain rfl := write.unique_of_runs one small run.runs client read.write
      exact ⟨rfl, (K.single write read.write).2.2⟩
    · rintro ⟨rfl, rfl⟩
      exact read.write
  · constructor
    · rintro ⟨x, request'⟩
      exact request'.unique_of_runs one small run.runs client request
    · rintro rfl
      exact ⟨y, request⟩
  · rcases K.overwritten few one run.runs read with ⟨same, none⟩ | ⟨ne, j, overwrites, -⟩
    · refine iff_of_false ?_ fun ⟨j, x, overwrites⟩ => none j x overwrites
      rintro ⟨message, bug⟩
      exact ((told message).mp bug).1 same
    · exact iff_of_true ⟨_, (told _).mpr ⟨ne, rfl⟩⟩ ⟨j, v, overwrites⟩
  · obtain ⟨ne, text⟩ := (told message).mp bug
    rcases K.overwritten few one run.runs read with ⟨same, -⟩ | ⟨-, last⟩
    · exact absurd same ne
    · exact ⟨text, last⟩

/-- Two clients write before the first of them reads. -/
theorem reports_with_two_clients :
    100 * 2 + 9 < 2 ^ 64 ∧ ∃ log s, (program 2).RunsInRange log s ∧ Takes log 13 .value 1 204 ∧
      TellsAt log 13 (.bug "client0 read 204 after writing 103") ∧
      ∃ w r j, r < 13 ∧ Takes log w .write 1 103 ∧ Overwrites log 1 w r j 204 := by
  have few : 100 * 2 + 9 < 2 ^ 64 := by decide
  have r₀ : (program 2).RunsInRange [] (start 2) := .initial
  -- Both clients choose and write, and the server takes both messages.
  have r₁ := r₀.step (List.mem_of_getElem? (i := 1) rfl) (by decide +kernel)
    (.chooseInt (n := 3) (.inr (by decide)) .done)
  have r₂ := r₁.step (List.mem_of_getElem? (i := 2) rfl) (by decide +kernel)
    (.chooseInt (n := 4) (.inr (by decide)) .done)
  have r₃ := r₂.step (List.mem_of_getElem? (i := 1) rfl) (by decide +kernel) (.send .done)
  have r₄ := r₃.step (List.mem_of_getElem? (i := 2) rfl) (by decide +kernel) (.send .done)
  have r₅ := r₄.step (List.mem_of_getElem? (i := 0) rfl) (by decide +kernel) .done
  have r₆ := r₅.step (List.mem_of_getElem? (i := 0) rfl) (by decide +kernel) (.dequeue .done)
  have r₇ := r₆.step (List.mem_of_getElem? (i := 0) rfl) (by decide +kernel) (.send .done)
  have r₈ := r₇.step (List.mem_of_getElem? (i := 0) rfl) (by decide +kernel) (.dequeue .done)
  have r₉ := r₈.step (List.mem_of_getElem? (i := 0) rfl) (by decide +kernel) (.send .done)
  -- The first client gets its acknowledgement, and reads.
  have r₁₀ := r₉.step (List.mem_of_getElem? (i := 1) rfl) (by decide +kernel) (.dequeue .done)
  have r₁₁ := r₁₀.step (List.mem_of_getElem? (i := 1) rfl) (by decide +kernel) (.send .done)
  have r₁₂ := r₁₁.step (List.mem_of_getElem? (i := 0) rfl) (by decide +kernel) (.dequeue .done)
  have r₁₃ := r₁₂.step (List.mem_of_getElem? (i := 0) rfl) (by decide +kernel) (.send .done)
  have r₁₄ := r₁₃.step (List.mem_of_getElem? (i := 1) rfl) (by decide +kernel)
    (.dequeue (.report .done))
  have overwritten {log : List LoggedStep} {s : State} (run : (program 2).RunsInRange log s)
      (value : Takes log 13 .value 1 204)
      (bug : TellsAt log 13 (.bug "client0 read 204 after writing 103"))
      (write : Takes log 5 .write 1 103) :
      ∃ log s, (program 2).RunsInRange log s ∧ Takes log 13 .value 1 204 ∧
        TellsAt log 13 (.bug "client0 read 204 after writing 103") ∧
        ∃ w r j, r < 13 ∧ Takes log w .write 1 103 ∧ Overwrites log 1 w r j 204 := by
    obtain ⟨w, r, u, -, before, writes, -, -, last⟩ :=
      (reports_iff_overwritten few run).2 13 1 204 value
    obtain ⟨-, j, overwrites, -⟩ := last _ bug
    obtain ⟨rfl, rfl⟩ := (writes 5 103).mp write
    exact ⟨log, s, run, value, bug, _, r, j, before, write, overwrites⟩
  exact ⟨few, overwritten r₁₄ ⟨_, rfl, List.mem_cons_self⟩
    ⟨_, rfl, List.mem_cons_of_mem _ (List.mem_singleton.mpr (by decide +kernel))⟩
    ⟨_, rfl, List.mem_cons_self⟩⟩

end Interleaving.RegisterRace
