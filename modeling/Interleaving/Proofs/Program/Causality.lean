import Mathlib
import Interleaving.Proofs.Clock
import Interleaving.Proofs.Program.Run

/-!
# Causality

One step of a run happens before another if it can have influenced it: the steps of an actor follow on
each other, and the step that takes a message follows on the one that sent it. An inbox is a queue, so
the message that an actor takes as its `n`-th is the `n`-th that was sent to it.

A clock reflects a set of steps if for each actor it counts how many of its steps, its first ones,
are in the set (`Reflects`). Clocks that reflect the pasts of two steps are ordered as the steps are
(`Reflects.le_iff`). A clock comes to reflect the past of a step by merging the clock of the message
that is taken, and by counting the step (`Reflects.merge`, `Reflects.increment`).
-/

namespace Interleaving

/-- The sum over a log of what is counted at each step. -/
def total (count : LoggedStep → Nat) (log : List LoggedStep) : Nat := (log.map count).sum

/-- Of all that is counted in a log, the `n`-th is at the step `k`. -/
def InTurn (count : LoggedStep → Nat) (log : List LoggedStep) (k n : Nat) : Prop :=
  total count (log.take k) ≤ n ∧ n < total count (log.take (k + 1))

namespace LoggedStep

/-- The steps of an actor. -/
def ofActor (actor : String) (step : LoggedStep) : Nat := if step.actor = actor then 1 else 0

/-- The messages sent to a receiver. -/
def sends (receiver : String) (step : LoggedStep) : Nat :=
  step.notices.countP (Notice.isSentTo receiver)

/-- The messages taken by a receiver. -/
def takes (receiver : String) (step : LoggedStep) : Nat :=
  step.notices.countP (Notice.isTakenBy receiver)

end LoggedStep

open LoggedStep

section Logs

variable {count : LoggedStep → Nat} {log more : List LoggedStep} {step : LoggedStep}
variable {i j k n : Nat} {x y actor : String}

lemma total_append : total count (log ++ more) = total count log + total count more := by
  rw [total, List.map_append, List.sum_append]
  rfl

lemma total_concat : total count (log ++ [step]) = total count log + count step := by
  rw [total_append]
  exact congrArg _ List.sum_singleton

lemma total_take_le : total count (log.take k) ≤ total count log := by
  conv_rhs => rw [← List.take_append_drop k log, total_append]
  exact Nat.le_add_right _ _

lemma total_take_mono (le : i ≤ j) : total count (log.take i) ≤ total count (log.take j) := by
  rw [← Nat.min_eq_left le, ← List.take_take]
  exact total_take_le

lemma InTurn.lt_length (h : InTurn count log k n) : k < log.length := by
  by_contra ge
  rw [InTurn, List.take_of_length_le (by omega), List.take_of_length_le (by omega)] at h
  omega

lemma InTurn.lt_total (h : InTurn count log k n) : n < total count log := h.2.trans_le total_take_le

/-- There is only one step for each turn. -/
lemma InTurn.unique (hi : InTurn count log i n) (hj : InTurn count log j n) : i = j := by
  rcases Nat.lt_trichotomy i j with lt | e | lt
  · exact absurd (hi.2.trans_le ((total_take_mono lt).trans hj.1)) (Nat.lt_irrefl n)
  · exact e
  · exact absurd (hj.2.trans_le ((total_take_mono lt).trans hi.1)) (Nat.lt_irrefl n)

lemma inTurn_append (lt : k < log.length) :
    InTurn count (log ++ more) k n ↔ InTurn count log k n := by
  rw [InTurn, List.take_append_of_le_length lt.le, List.take_append_of_le_length lt]
  rfl

lemma inTurn_last :
    InTurn count (log ++ [step]) log.length n ↔
      total count log ≤ n ∧ n < total count log + count step := by
  rw [InTurn, List.take_left, List.take_of_length_le (by simp), total_concat]

/-- There is a step for each turn. -/
lemma exists_inTurn (lt : n < total count log) : ∃ k, InTurn count log k n := by
  induction log using List.reverseRecOn with
  | nil => exact absurd lt (Nat.not_lt_zero n)
  | append_singleton log step ih =>
    by_cases before : n < total count log
    · obtain ⟨k, h⟩ := ih before
      exact ⟨k, (inTurn_append h.lt_length).mpr h⟩
    · rw [total_concat] at lt
      exact ⟨log.length, inTurn_last.mpr ⟨Nat.le_of_not_lt before, lt⟩⟩

/-- What is counted once is counted at one step only. -/
lemma eq_of_total_le_one (le : total count log ≤ 1)
    (hi : ∃ step, log[i]? = some step ∧ 0 < count step)
    (hj : ∃ step, log[j]? = some step ∧ 0 < count step) : i = j := by
  have first : ∀ {k}, (∃ step, log[k]? = some step ∧ 0 < count step) → InTurn count log k 0 := by
    rintro k ⟨step, get, pos⟩
    have next : total count (log.take (k + 1)) = total count (log.take k) + count step := by
      rw [List.take_add_one, get, Option.toList_some, total_concat]
    have := (total_take_le (k := k + 1)).trans le
    exact ⟨by omega, by omega⟩
  exact (first hi).unique (first hj)

/-- The step `k` is one of the actor's. -/
def ActsAt (log : List LoggedStep) (k : Nat) (actor : String) : Prop :=
  log[k]?.map (·.actor) = some actor

/-- The scheduler is told of something at the step `k`. -/
def TellsAt (log : List LoggedStep) (k : Nat) (notice : Notice) : Prop :=
  ∃ step, log[k]? = some step ∧ notice ∈ step.notices

lemma ActsAt.lt_length (h : ActsAt log k actor) : k < log.length := by
  by_contra ge
  rw [ActsAt, List.getElem?_eq_none (by omega)] at h
  cases h

lemma exists_actsAt (lt : k < log.length) : ∃ actor, ActsAt log k actor := by
  exact ⟨log[k].actor, by rw [ActsAt, List.getElem?_eq_getElem lt, Option.map_some]⟩

lemma ActsAt.unique (hx : ActsAt log k x) (hy : ActsAt log k y) : x = y :=
  Option.some.inj (hx.symm.trans hy)

lemma actsAt_append (lt : k < log.length) : ActsAt (log ++ more) k actor ↔ ActsAt log k actor := by
  rw [ActsAt, List.getElem?_append_left lt]
  rfl

lemma actsAt_last : ActsAt (log ++ [step]) log.length actor ↔ step.actor = actor := by
  rw [ActsAt, List.getElem?_concat_length, Option.map_some, Option.some_inj]

lemma tellsAt_concat {notice : Notice} : TellsAt (log ++ [step]) k notice ↔
    TellsAt log k notice ∧ k < log.length ∨ k = log.length ∧ notice ∈ step.notices := by
  rcases Nat.lt_trichotomy k log.length with lt | rfl | gt
  · rw [TellsAt, List.getElem?_append_left lt]
    simp only [lt, lt.ne, and_true, false_and, or_false]
    rfl
  · simp [TellsAt]
  · have length : (log ++ [step]).length ≤ k := by simpa using gt
    simp [TellsAt, List.getElem?_eq_none length, gt.not_gt, gt.ne']

/-- Each step of an actor is its `n`-th for some `n`. -/
lemma actsAt_iff : ActsAt log k actor ↔ ∃ n, InTurn (ofActor actor) log k n := by
  induction log using List.reverseRecOn with
  | nil => exact ⟨fun h => absurd h.lt_length (Nat.not_lt_zero k),
      fun ⟨n, h⟩ => absurd h.lt_length (Nat.not_lt_zero k)⟩
  | append_singleton log step ih =>
    rcases Nat.lt_trichotomy k log.length with lt | rfl | gt
    · simp only [actsAt_append lt, inTurn_append lt, ih]
    · rw [actsAt_last]
      simp only [inTurn_last, ofActor]
      constructor
      · rintro rfl
        exact ⟨_, Nat.le_refl _, by simp⟩
      · rintro ⟨n, le, lt⟩
        by_contra ne
        rw [if_neg ne] at lt
        omega
    · have length : (log ++ [step]).length ≤ k := by simpa using gt
      exact ⟨fun h => absurd h.lt_length (Nat.not_lt.mpr length),
        fun ⟨n, h⟩ => absurd h.lt_length (Nat.not_lt.mpr length)⟩

end Logs

/-- The step `i` comes before the step `j` of the same actor, or sends a message that the step `j`
takes. -/
def DirectlyBefore (log : List LoggedStep) (i j : Nat) : Prop :=
  i < j ∧ ((∃ actor, ActsAt log i actor ∧ ActsAt log j actor) ∨
    ∃ receiver n, InTurn (sends receiver) log i n ∧ InTurn (takes receiver) log j n)

/-- The step `i` can have influenced the step `j`. -/
def HappensBefore (log : List LoggedStep) : Nat → Nat → Prop :=
  Relation.TransGen (DirectlyBefore log)

/-- A step, and all that happen before it. -/
def past (log : List LoggedStep) (j : Nat) : Set Nat :=
  {i | Relation.ReflTransGen (DirectlyBefore log) i j}

/-- The pasts of an actor's steps. -/
def known (log : List LoggedStep) (actor : String) : Set Nat :=
  {i | ∃ j, ActsAt log j actor ∧ i ∈ past log j}

section Pasts

variable {log more : List LoggedStep} {step : LoggedStep} {i j k : Nat} {actor : String}

lemma DirectlyBefore.lt_length (h : DirectlyBefore log i j) : j < log.length := by
  obtain ⟨_, ⟨_, _, acts⟩ | ⟨_, _, _, taken⟩⟩ := h
  · exact acts.lt_length
  · exact taken.lt_length

lemma directlyBefore_append (lt : j < log.length) :
    DirectlyBefore (log ++ more) i j ↔ DirectlyBefore log i j := by
  refine and_congr_right fun le => ?_
  have lt' : i < log.length := le.trans lt
  simp only [actsAt_append lt, actsAt_append lt', inTurn_append lt, inTurn_append lt']

lemma le_of_mem_past (h : i ∈ past log j) : i ≤ j := by
  induction h with
  | refl => exact Nat.le_refl _
  | tail _ direct ih => exact ih.trans direct.1.le

lemma mem_past_self : j ∈ past log j := Relation.ReflTransGen.refl

lemma past_trans (hij : i ∈ past log j) (hjk : j ∈ past log k) : i ∈ past log k := hij.trans hjk

/-- The past of a step does not change any more. -/
lemma past_append (more : List LoggedStep) (lt : j < log.length) :
    past (log ++ more) j = past log j := by
  ext i
  constructor
  · intro h
    induction h using Relation.ReflTransGen.head_induction_on with
    | refl => exact mem_past_self
    | head direct rest ih =>
      have le : _ ≤ j := le_of_mem_past rest
      exact ih.head ((directlyBefore_append (le.trans_lt lt)).mp direct)
  · intro h
    refine Relation.ReflTransGen.mono (fun i k direct => ?_) _ _ h
    exact (directlyBefore_append direct.lt_length).mpr direct

lemma lt_length_of_mem_known (h : i ∈ known log actor) : i < log.length := by
  obtain ⟨j, acts, mem⟩ := h
  exact (le_of_mem_past mem).trans_lt acts.lt_length

lemma mem_known_of_actsAt (h : ActsAt log k actor) : k ∈ known log actor := ⟨k, h, mem_past_self⟩

/-- What the last step knows: itself, all that its actor knew, and the pasts of the messages it
takes. -/
lemma mem_past_last : i ∈ past (log ++ [step]) log.length ↔ i = log.length ∨
    i ∈ known log step.actor ∨
    ∃ receiver n k, total (takes receiver) log ≤ n ∧
      n < total (takes receiver) log + step.takes receiver ∧
      InTurn (sends receiver) log k n ∧ i ∈ past log k := by
  constructor
  · intro h
    rcases Relation.ReflTransGen.cases_tail h with rfl | ⟨k, rest, lt, direct⟩
    · exact .inl rfl
    have rest : i ∈ past log k := by rwa [← past_append [step] lt]
    rcases direct with ⟨actor, acts, last⟩ | ⟨receiver, n, sent, taken⟩
    · rw [actsAt_append lt] at acts
      rw [actsAt_last] at last
      exact .inr (.inl ⟨k, last ▸ acts, rest⟩)
    · rw [inTurn_append lt] at sent
      rw [inTurn_last] at taken
      exact .inr (.inr ⟨receiver, n, k, taken.1, taken.2, sent, rest⟩)
  · rintro (rfl | ⟨k, acts, rest⟩ | ⟨receiver, n, k, le, lt, sent, rest⟩)
    · exact mem_past_self
    · have lt := acts.lt_length
      rw [← past_append [step] lt] at rest
      refine rest.tail ⟨lt, .inl ⟨step.actor, ?_, actsAt_last.mpr rfl⟩⟩
      exact (actsAt_append lt).mpr acts
    · have lt' := sent.lt_length
      rw [← past_append [step] lt'] at rest
      refine rest.tail ⟨lt', .inr ⟨receiver, n, ?_, inTurn_last.mpr ⟨le, lt⟩⟩⟩
      exact (inTurn_append lt').mpr sent

/-- After its step, an actor knows what the step does. -/
lemma known_concat_self : known (log ++ [step]) step.actor = past (log ++ [step]) log.length := by
  ext i
  constructor
  · rintro ⟨j, acts, mem⟩
    have lt := acts.lt_length
    rw [List.length_append, List.length_singleton] at lt
    rcases Nat.lt_succ_iff_lt_or_eq.mp lt with lt | rfl
    · rw [actsAt_append lt] at acts
      rw [past_append [step] lt] at mem
      exact mem_past_last.mpr (.inr (.inl ⟨j, acts, mem⟩))
    · exact mem
  · exact fun mem => ⟨log.length, actsAt_last.mpr rfl, mem⟩

/-- No other actor knows of the step. -/
lemma known_concat_of_ne (ne : step.actor ≠ actor) :
    known (log ++ [step]) actor = known log actor := by
  ext i
  constructor
  · rintro ⟨j, acts, mem⟩
    have lt := acts.lt_length
    rw [List.length_append, List.length_singleton] at lt
    rcases Nat.lt_succ_iff_lt_or_eq.mp lt with lt | rfl
    · rw [actsAt_append lt] at acts
      rw [past_append [step] lt] at mem
      exact ⟨j, acts, mem⟩
    · exact absurd (actsAt_last.mp acts) ne
  · rintro ⟨j, acts, mem⟩
    have lt := acts.lt_length
    rw [← past_append [step] lt] at mem
    exact ⟨j, (actsAt_append lt).mpr acts, mem⟩

/-- A step that takes nothing knows what its actor knew. -/
lemma past_last_of_none (none : ∀ receiver, step.takes receiver = 0) :
    past (log ++ [step]) log.length = insert log.length (known log step.actor) := by
  ext i
  rw [mem_past_last, Set.mem_insert_iff]
  refine or_congr_right (or_iff_left ?_)
  rintro ⟨receiver, n, k, le, lt, _⟩
  rw [none] at lt
  omega

/-- A step that takes the message that is next for its actor also knows the past of that message. -/
lemma past_last_of_take
    (one : ∀ receiver, step.takes receiver = if step.actor = receiver then 1 else 0)
    (sent : InTurn (sends step.actor) log k (total (takes step.actor) log)) :
    past (log ++ [step]) log.length = insert log.length (known log step.actor ∪ past log k) := by
  ext i
  rw [mem_past_last, Set.mem_insert_iff, Set.mem_union]
  refine or_congr_right (or_congr_right ?_)
  constructor
  · rintro ⟨receiver, n, k', le, lt, sent', mem⟩
    rw [one] at lt
    by_cases e : step.actor = receiver
    · subst e
      rw [if_pos rfl] at lt
      have first : n = total (takes step.actor) log := by omega
      subst first
      rwa [sent.unique sent']
    · rw [if_neg e] at lt
      omega
  · intro mem
    refine ⟨step.actor, _, k, Nat.le_refl _, ?_, sent, mem⟩
    rw [one, if_pos rfl]
    exact Nat.lt_succ_self _

end Pasts

/-- For each actor, the steps in the set are as many of its first ones as the clock counts. -/
structure Reflects (log : List LoggedStep) (steps : Set Nat) (c : VectorClock) : Prop where
  counted : ∀ actor, (c.get actor).toNat ≤ total (ofActor actor) log
  mem_iff : ∀ {actor k n}, InTurn (ofActor actor) log k n → (k ∈ steps ↔ n < (c.get actor).toNat)

namespace Reflects

variable {log : List LoggedStep} {step : LoggedStep} {S T : Set Nat} {c d : VectorClock} {i j : Nat}

lemma empty : Reflects log ∅ .empty := by
  refine ⟨fun actor => Nat.zero_le _, fun {actor k n} _ => ?_⟩
  exact ⟨fun h => absurd h (Set.notMem_empty k), fun h => absurd h (Nat.not_lt_zero n)⟩

lemma merge (hc : Reflects log S c) (hd : Reflects log T d) : Reflects log (S ∪ T) (c.merge d) := by
  constructor
  · intro actor
    rw [VectorClock.toNat_get_merge]
    exact Nat.max_le.mpr ⟨hc.counted actor, hd.counted actor⟩
  · intro actor k n turn
    rw [VectorClock.toNat_get_merge, Set.mem_union, hc.mem_iff turn, hd.mem_iff turn, lt_max_iff]

/-- A step that is not in the set does not matter. -/
lemma concat (h : Reflects log S c) (before : ∀ k ∈ S, k < log.length) :
    Reflects (log ++ [step]) S c := by
  constructor
  · intro actor
    rw [total_concat]
    exact (h.counted actor).trans (Nat.le_add_right _ _)
  · intro actor k n turn
    have lt := turn.lt_length
    rw [List.length_append, List.length_singleton] at lt
    rcases Nat.lt_succ_iff_lt_or_eq.mp lt with lt | rfl
    · exact h.mem_iff ((inTurn_append lt).mp turn)
    · have le := (h.counted actor).trans (inTurn_last.mp turn).1
      exact ⟨fun mem => absurd (before _ mem) (Nat.lt_irrefl _), fun lt => absurd lt (by omega)⟩

/-- If all steps of an actor are in the set, its counter is their number. -/
lemma get_eq (h : Reflects log S c) {actor : String} (all : ∀ k, ActsAt log k actor → k ∈ S) :
    (c.get actor).toNat = total (ofActor actor) log := by
  by_contra ne
  have lt := Nat.lt_of_le_of_ne (h.counted actor) ne
  obtain ⟨k, turn⟩ := exists_inTurn lt
  exact Nat.lt_irrefl _ ((h.mem_iff turn).mp (all k (actsAt_iff.mpr ⟨_, turn⟩)))

/-- An actor whose steps are all in the set counts one more. -/
lemma increment (h : Reflects log S c)
    (all : ∀ k, ActsAt log k step.actor → k ∈ S)
    (fits : total (ofActor step.actor) log + 1 < 2 ^ 64) :
    Reflects (log ++ [step]) (insert log.length S) (c.increment step.actor) := by
  have own := h.get_eq all
  constructor
  · intro actor
    rw [total_concat]
    by_cases e : step.actor = actor
    · subst e
      rw [VectorClock.toNat_get_increment_self (by omega), own, ofActor, if_pos rfl]
    · rw [VectorClock.get_increment_of_ne e]
      exact (h.counted actor).trans (Nat.le_add_right _ _)
  · intro actor k n turn
    have lt := turn.lt_length
    rw [List.length_append, List.length_singleton] at lt
    rcases Nat.lt_succ_iff_lt_or_eq.mp lt with lt | rfl
    · have turn := (inTurn_append lt).mp turn
      rw [Set.mem_insert_iff, or_iff_right lt.ne, h.mem_iff turn]
      by_cases e : step.actor = actor
      · subst e
        have := turn.lt_total
        rw [VectorClock.toNat_get_increment_self (by omega)]
        omega
      · rw [VectorClock.get_increment_of_ne e]
    · have turn := inTurn_last.mp turn
      by_cases e : step.actor = actor
      · subst e
        rw [ofActor, if_pos rfl] at turn
        rw [VectorClock.toNat_get_increment_self (by omega)]
        exact ⟨fun _ => by omega, fun _ => Set.mem_insert _ _⟩
      · rw [ofActor, if_neg e] at turn
        omega

/-- Clocks that reflect the pasts of steps are ordered as the steps are. -/
lemma le_iff (hc : Reflects log (past log i) c) (hd : Reflects log (past log j) d)
    (lt : i < log.length) : c.le d = true ↔ i ∈ past log j := by
  rw [VectorClock.le_iff]
  constructor
  · intro le
    obtain ⟨actor, acts⟩ := exists_actsAt lt
    obtain ⟨n, turn⟩ := actsAt_iff.mp acts
    have own := (hc.mem_iff turn).mp mem_past_self
    exact (hd.mem_iff turn).mpr (own.trans_le (UInt64.le_iff_toNat_le.mp (le _)))
  · intro mem actor
    rw [UInt64.le_iff_toNat_le]
    by_contra gt
    -- The first step of the actor that the clock `d` does not count is in the past of `i`.
    have gt := Nat.lt_of_not_le gt
    obtain ⟨k, turn⟩ := exists_inTurn (gt.trans_le (hc.counted actor))
    have mem' := past_trans ((hc.mem_iff turn).mpr gt) mem
    exact Nat.lt_irrefl _ ((hd.mem_iff turn).mp mem')

/-- Clocks that reflect the pasts of different steps are concurrent if neither step happens before the
other. -/
lemma concurrent_iff (hc : Reflects log (past log i) c) (hd : Reflects log (past log j) d)
    (hi : i < log.length) (hj : j < log.length) (ne : i ≠ j) :
    c.concurrent d = true ↔ ¬ HappensBefore log i j ∧ ¬ HappensBefore log j i := by
  have before : ∀ {i j}, i ≠ j → (i ∈ past log j ↔ HappensBefore log i j) := by
    intro i j ne
    exact Relation.reflTransGen_iff_eq_or_transGen.trans (or_iff_right ne.symm)
  rw [VectorClock.concurrent, Bool.and_eq_true, Bool.not_eq_true', Bool.not_eq_true',
    ← Bool.not_eq_true, ← Bool.not_eq_true, hc.le_iff hd hi, hd.le_iff hc hj, before ne,
    before ne.symm]

/-- A clock that reflects the past of a step goes on doing so. -/
lemma past_concat (h : Reflects log (past log i) c) (lt : i < log.length) :
    Reflects (log ++ [step]) (past (log ++ [step]) i) c := by
  rw [past_append [step] lt]
  exact h.concat fun k mem => (le_of_mem_past mem).trans_lt lt

end Reflects

/-- The clocks of the messages that wait for an actor, the next one first. -/
structure Mailbox (log : List LoggedStep) (receiver : String) (clocks : List VectorClock) : Prop where
  balance : total (takes receiver) log + clocks.length = total (sends receiver) log
  waiting : ∀ {p c}, clocks[p]? = some c →
    ∃ k, InTurn (sends receiver) log k (total (takes receiver) log + p) ∧ Reflects log (past log k) c

lemma Mailbox.nil {receiver : String} : Mailbox [] receiver [] := ⟨rfl, fun h => by cases h⟩

/-- Messages are taken from the front and arrive at the back. -/
lemma Mailbox.concat {log : List LoggedStep} {step : LoggedStep} {receiver : String}
    {clocks arrived : List VectorClock} (h : Mailbox log receiver clocks)
    (taken : step.takes receiver ≤ clocks.length) (sent : arrived.length = step.sends receiver)
    (reflects : ∀ c ∈ arrived, Reflects (log ++ [step]) (past (log ++ [step]) log.length) c) :
    Mailbox (log ++ [step]) receiver (clocks.drop (step.takes receiver) ++ arrived) := by
  have balance := h.balance
  constructor
  case balance =>
    rw [List.length_append, List.length_drop, total_concat, total_concat]
    omega
  case waiting =>
    intro p c get
    rw [total_concat]
    rw [List.getElem?_append, List.length_drop] at get
    split at get
    · rw [List.getElem?_drop] at get
      obtain ⟨k, turn, reflects⟩ := h.waiting get
      refine ⟨k, (inTurn_append turn.lt_length).mpr ?_, reflects.past_concat turn.lt_length⟩
      rwa [Nat.add_assoc]
    · obtain ⟨lt, _⟩ := List.getElem?_eq_some_iff.mp get
      exact ⟨log.length, inTurn_last.mpr (by omega), reflects c (List.mem_of_getElem? get)⟩

end Interleaving
