import Interleaving.Proofs.Strategy.Contract

/-!
# What guidance holds back

A guided strategy shows the strategy inside it either everything that is on offer or the operations
that can run and are not held back (`Guidance.not_isSendOf_of_mem_shown`), and leaves the rest to it. So
if the strategy inside picks operations that can run, the guided one does so as well, and it picks the
send of an interesting event only where nothing else can run (`GuidedStrategy.picks_of_reachable`).
-/

namespace Interleaving

/-- The operation is a send, and its event is one of these. -/
def Operation.IsSendOf (interesting : InterestingEvents) (op : Operation) : Prop :=
  op.kind = .send ∧ ∃ info, op.send = some info ∧ interesting.contains info.event = true

namespace Scheduler

variable {S : Type} [Scheduler S]

/-- The states that a scheduler can come to by requests, in any order. -/
inductive Reachable (start : S) : S → Prop where
  | start : Reachable start start
  | nextOperation {s : S} (ops : List Operation) :
    Reachable start s → Reachable start (Scheduler.nextOperation s ops).2
  | nextBool {s : S} (maxValue : UInt64) :
    Reachable start s → Reachable start (Scheduler.nextBool s maxValue).2
  | nextInt {s : S} (maxValue : UInt64) :
    Reachable start s → Reachable start (Scheduler.nextInt s maxValue).2
  | observe {s : S} (summary : RunSummary) :
    Reachable start s → Reachable start (Scheduler.observe s summary)
  | prepare {s : S} : Reachable start s → Reachable start (Scheduler.prepare s).2

/-- Of these operations the scheduler picks one that can run, or nothing if none can. -/
structure Picks (s : S) (ops : List Operation) : Prop where
  nothing : (∀ op ∈ ops, op.isEnabled = false) → (Scheduler.nextOperation s ops).1 = .ok none
  something : (∃ op ∈ ops, op.isEnabled = true) →
    ∃ op ∈ ops, op.isEnabled = true ∧ (Scheduler.nextOperation s ops).1 = .ok (some op.id)

end Scheduler

namespace Guidance

variable {g : Guidance} {op : Operation} {ops : List Operation}

lemma holdsBack_iff : g.holdsBack op = true ↔ op.IsSendOf g.interesting := by
  rw [holdsBack, Operation.sentEvent?, Operation.IsSendOf, Operation.isSend]
  by_cases send : op.kind = .send
  · cases info : op.send <;> simp [send]
  · simp [send]

/-- An operation that is shown and can run is held back only if all are that can. -/
lemma not_isSendOf_of_mem_shown (mem : op ∈ g.shown ops) (enabled : op.isEnabled = true) :
    ¬ op.IsSendOf g.interesting ∨
      ∀ other ∈ ops, other.isEnabled = true → other.IsSendOf g.interesting := by
  simp only [← holdsBack_iff]
  simp only [shown] at mem
  split at mem
  case isTrue =>
    have kept := (List.mem_filter.mp mem).2
    rw [Bool.not_eq_true'] at kept
    exact .inl (Bool.eq_false_iff.mp kept)
  case isFalse all =>
    by_cases held : g.holdsBack op = true
    case neg => exact .inl held
    refine .inr fun other mem' enabled' => ?_
    by_contra free
    apply all
    rw [Bool.and_eq_true, Bool.not_eq_true', List.isEmpty_eq_false_iff_exists_mem, List.any_eq_true]
    exact ⟨⟨op, List.mem_filter.mpr ⟨mem, enabled⟩, held⟩, other,
      List.mem_filter.mpr ⟨List.mem_filter.mpr ⟨mem', enabled'⟩, by simpa using free⟩⟩

end Guidance

namespace GuidedStrategy

variable {S : Type} [Scheduler S] {start s : GuidedStrategy S}

/-- The strategy inside a guided one goes through states of its own, and what is of interest stays. -/
lemma reachable_inner (reached : Scheduler.Reachable start s) :
    Scheduler.Reachable start.inner s.inner ∧
      s.guidance.interesting = start.guidance.interesting := by
  induction reached with
  | start => exact ⟨.start, rfl⟩
  | nextOperation ops _ ih => exact ⟨.nextOperation _ ih.1, ih.2⟩
  | nextBool maxValue _ ih => exact ⟨.nextBool maxValue ih.1, ih.2⟩
  | nextInt maxValue _ ih => exact ⟨.nextInt maxValue ih.1, ih.2⟩
  | observe summary _ ih => exact ⟨.observe summary ih.1, ih.2⟩
  | prepare _ ih => exact ⟨.prepare ih.1, ih.2⟩

end GuidedStrategy

namespace Strategy

/-- The guided strategies of a session answer as those over any other strategy. -/
lemma nextOperation_guided (g : Guidance) (inner : Strategy) (ops : List Operation) :
    (guided g inner).nextOperation ops =
      (Scheduler.nextOperation (⟨inner, g⟩ : GuidedStrategy Strategy) ops).map id
        fun s => guided s.guidance s.inner := rfl

/-- A strategy built from settings picks operations that can run, so it may be guided. -/
lemma picks_of_buildStrategy {c : Config} {matcher : Option Matcher} {start s : Strategy}
    (built : c.buildStrategy matcher = .ok start) (reached : Scheduler.Reachable start s)
    (ops : List Operation) : Scheduler.Picks s ops := by
  have reached : Strategy.Reachable start s := by
    induction reached with
    | start => exact .start
    | nextOperation ops _ ih => exact .nextOperation ops ih
    | nextBool maxValue _ ih => exact .nextBool maxValue ih
    | nextInt maxValue _ ih => exact .nextInt maxValue ih
    | observe summary _ ih => exact .observe summary ih
    | prepare _ ih => exact .prepare ih
  obtain ⟨steps, runs⟩ := reached.runs (c.runs_of_buildStrategy built)
  obtain ⟨s', answer, _, none⟩ | ⟨op, mem, enabled, s', answer, _⟩ := runs.nextOperation ops
  · have answer : (Scheduler.nextOperation s ops).1 = .ok .none := congrArg Prod.fst answer
    refine ⟨fun _ => answer, ?_⟩
    rintro ⟨op, mem, enabled⟩
    rw [none op mem] at enabled
    cases enabled
  · have answer : (Scheduler.nextOperation s ops).1 = .ok (some op.id) := congrArg Prod.fst answer
    refine ⟨fun none => ?_, fun _ => ⟨op, mem, enabled, answer⟩⟩
    rw [none op mem] at enabled
    cases enabled

end Strategy

/-- Let the strategy inside pick operations that can run in each of its states. Then the guided one
answers nothing, in each of its own, exactly if none of the operations on offer can run, and otherwise
the number of one that can. This one is the send of an interesting event only if each of them is that
can run. -/
theorem GuidedStrategy.picks_of_reachable {S : Type} [Scheduler S] {inner : S}
    {interesting : InterestingEvents}
    (sound : ∀ t, Scheduler.Reachable inner t → ∀ ops, Scheduler.Picks t ops)
    {s : GuidedStrategy S} (reached : Scheduler.Reachable ⟨inner, .ofEvents interesting⟩ s)
    (ops : List Operation) :
    ((Scheduler.nextOperation s ops).1 = .ok none ↔ ∀ op ∈ ops, op.isEnabled = false) ∧
    ((∃ op ∈ ops, op.isEnabled = true) →
      ∃ op ∈ ops, op.isEnabled = true ∧ (Scheduler.nextOperation s ops).1 = .ok (some op.id) ∧
        (¬ op.IsSendOf interesting ∨
          ∀ other ∈ ops, other.isEnabled = true → other.IsSendOf interesting)) := by
  obtain ⟨inside, same⟩ := reachable_inner reached
  have same : s.guidance.interesting = interesting := same
  have picks := sound s.inner inside (s.guidance.shown ops)
  have some : (∃ op ∈ ops, op.isEnabled = true) →
      ∃ op ∈ ops, op.isEnabled = true ∧ (Scheduler.nextOperation s ops).1 = .ok (some op.id) ∧
        (¬ op.IsSendOf interesting ∨
          ∀ other ∈ ops, other.isEnabled = true → other.IsSendOf interesting) := by
    rintro ⟨op, mem, enabled⟩
    obtain ⟨op, mem, enabled, answer⟩ :=
      picks.something (Guidance.exists_enabled_shown mem enabled)
    exact ⟨op, Guidance.mem_of_mem_shown mem, enabled, answer,
      same ▸ Guidance.not_isSendOf_of_mem_shown mem enabled⟩
  refine ⟨⟨fun answer op mem => ?_, fun none => ?_⟩, some⟩
  · by_contra enabled
    rw [Bool.not_eq_false] at enabled
    obtain ⟨_, _, _, answer', _⟩ := some ⟨op, mem, enabled⟩
    cases answer.symm.trans answer'
  · exact picks.nothing fun op mem => none op (Guidance.mem_of_mem_shown mem)

/-- A strategy over chains that learns has made one decision under the guidance of a pattern with the
event `Ack`. Of a send of that event, an operation that cannot run and one that can, it picks the last. -/
theorem GuidedStrategy.picks_beside_held_send :
    let c := { Config.standard with strategy := .feedbackPctcp }
    let inner := c.learning (.pctcp 10)
    let interesting := InterestingEvents.ofList ["Ack"]
    let ack := (Operation.ofActor 1 "client").sending "server" 1 "Ack"
    let waiting := { Operation.ofActor 2 "server" with status := .disabled }
    let timer := Operation.ofActor 3 "timer"
    let s := (Scheduler.nextOperation (⟨inner, .ofEvents interesting⟩ : GuidedStrategy Strategy)
      [ack, waiting]).2
    (∀ t, Scheduler.Reachable inner t → ∀ ops, Scheduler.Picks t ops) ∧
      Scheduler.Reachable ⟨inner, .ofEvents interesting⟩ s ∧ ack.IsSendOf interesting ∧
      ((Strategy.guided s.guidance s.inner).nextOperation [ack, waiting, timer]).1 = .ok (some 3) := by
  intro c inner interesting ack waiting timer s
  have built : c.buildStrategy none = .ok inner := rfl
  have sound : ∀ t, Scheduler.Reachable inner t → ∀ ops, Scheduler.Picks t ops :=
    fun _ reached => Strategy.picks_of_buildStrategy built reached
  have reached : Scheduler.Reachable ⟨inner, .ofEvents interesting⟩ s := .nextOperation _ .start
  have isSend : ack.IsSendOf interesting := ⟨rfl, _, rfl, by decide⟩
  refine ⟨sound, reached, isSend, ?_⟩
  obtain ⟨op, mem, enabled, answer, free⟩ :=
    (picks_of_reachable sound reached [ack, waiting, timer]).2 ⟨timer, by simp, rfl⟩
  have free : ¬ op.IsSendOf interesting := by
    refine free.elim id fun all => ?_
    cases (all timer (by simp) rfl).1
  rw [Strategy.nextOperation_guided]
  rcases List.mem_cons.mp mem with rfl | mem
  · exact absurd isSend free
  rcases List.mem_cons.mp mem with rfl | mem
  · cases enabled
  · cases List.mem_singleton.mp mem
    exact answer

end Interleaving
