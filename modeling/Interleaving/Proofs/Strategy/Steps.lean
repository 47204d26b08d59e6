import Interleaving.Proofs.Schedule.Generator
import Interleaving.Session.Config

/-!
# What a strategy counts

In the middle of a run a strategy knows the bound on its steps, whether it is fair, and how many
decisions it has made, and the generator behind it is valid. `Strategy.Runs` says so, and each request
is one lemma: the answer it gives, and the count after it.
-/

namespace Interleaving

lemma ChoiceStream.nextInt_lt {s : ChoiceStream} {bound : UInt64} :
    bound = 0 ∨ (s.nextInt bound).1 < bound := by
  by_cases h : bound = 0
  · exact .inl h
  · have pos : 0 < bound.toNat := by
      rw [Nat.pos_iff_ne_zero]
      exact fun e => h (UInt64.toNat_inj.mp e)
    refine .inr ?_
    rw [nextInt]
    simp only [if_neg h]
    rw [UInt64.lt_iff_toNat_lt, UInt64.toNat_mod]
    exact Nat.mod_lt _ pos

/-- Of some operations none can run, or a valid generator picks one that can. -/
lemma ScheduleGenerator.Valid.nextAmong {g : ScheduleGenerator} (V : g.Valid)
    (ops : List Operation) :
    (Operation.enabledAmong ops = [] ∧ ∀ op ∈ ops, op.isEnabled = false) ∨
    ∃ op ∈ ops, op.isEnabled = true ∧ ∃ first others,
      Operation.enabledAmong ops = first :: others ∧
      (g.next (first :: others)).1 = .ok op.id ∧ (g.next (first :: others)).2.Valid := by
  cases e : Operation.enabledAmong ops with
  | nil =>
    refine .inl ⟨rfl, fun op mem => ?_⟩
    simpa using List.filter_eq_nil_iff.mp e op mem
  | cons first others =>
    obtain ⟨⟨op, mem, answer⟩, valid⟩ := V.next (List.cons_ne_nil first others)
    obtain ⟨mem, enabled⟩ := List.mem_filter.mp (e ▸ mem)
    exact .inr ⟨op, mem, enabled, first, others, rfl, answer, valid⟩

namespace Guidance

variable {g : Guidance} {ops : List Operation}

lemma mem_of_mem_shown {op : Operation} (mem : op ∈ g.shown ops) : op ∈ ops := by
  simp only [shown] at mem
  split at mem
  · exact (List.mem_filter.mp (List.mem_filter.mp mem).1).1
  · exact mem

lemma exists_enabled_shown {op : Operation} (mem : op ∈ ops) (enabled : op.isEnabled = true) :
    ∃ op ∈ g.shown ops, op.isEnabled = true := by
  simp only [shown]
  split
  · next h =>
    rw [Bool.and_eq_true, Bool.not_eq_true', ← Bool.not_eq_true, List.isEmpty_iff] at h
    obtain ⟨op', mem'⟩ := List.exists_mem_of_ne_nil _ h.2
    exact ⟨op', mem', (List.mem_filter.mp (List.mem_filter.mp mem').1).2⟩
  · exact ⟨op, mem, enabled⟩

end Guidance

namespace FeedbackStrategy

variable {s : FeedbackStrategy}

/-- Deriving a generator changes nothing but the generator and the count of stale runs. -/
lemma exists_derive_eq (base : RunGenerator) :
    ∃ current rng stale, s.derive base =
      { s with current := current, rng := rng, staleIterations := stale } := by
  rw [derive]
  split
  · exact ⟨_, _, _, rfl⟩
  · split <;> exact ⟨_, _, _, rfl⟩

/-- Deriving the next generator changes nothing but the generator and where it comes from. -/
lemma exists_nextGenerator_eq :
    ∃ current rng index mutations stale, s.nextGenerator =
      { s with
        current := current
        rng := rng
        currentInputIndex := index
        mutationsWithoutSave := mutations
        staleIterations := stale } := by
  rw [nextGenerator]
  split
  · exact ⟨_, _, _, _, _, rfl⟩
  · have rotated : ∃ index mutations stale, s.rotate =
        { s with
          currentInputIndex := index
          mutationsWithoutSave := mutations
          staleIterations := stale } := by
      rw [rotate]
      split <;> exact ⟨_, _, _, rfl⟩
    obtain ⟨index, mutations, stale, eq⟩ := rotated
    simp only [eq]
    split
    · next base _ =>
      obtain ⟨current, rng, stale', eq'⟩ := exists_derive_eq
        (s := { s with
          currentInputIndex := index
          mutationsWithoutSave := mutations
          staleIterations := stale }) base
      exact ⟨current, rng, index, mutations, stale', eq'⟩
    · exact ⟨_, _, _, _, _, rfl⟩

end FeedbackStrategy

namespace Strategy

variable {s : Strategy} {bound steps : Nat} {fair : Bool}

/-- The strategy has made so many decisions of a run that has a bound and is fair or not. -/
def Runs (bound : Nat) (fair : Bool) (steps : Nat) : Strategy → Prop
  | renewing s =>
    s.generator.Valid ∧ s.maxSteps = bound ∧ s.fair = fair ∧ s.scheduledSteps = steps
  | feedback s =>
    s.current.schedule.Valid ∧ s.maxSteps = bound ∧ s.fair = fair ∧ s.scheduledSteps = steps
  | replay _ => False
  | guided _ inner => inner.Runs bound fair steps

lemma Runs.scheduledSteps (h : s.Runs bound fair steps) : s.scheduledSteps = steps := by
  induction s with
  | renewing s => exact h.2.2.2
  | feedback s => exact h.2.2.2
  | replay s => cases h
  | guided g inner ih => exact ih h

lemma Runs.reachedMaxSteps (h : s.Runs bound fair steps) :
    s.reachedMaxSteps = reachesBound bound steps := by
  induction s with
  | renewing s =>
    obtain ⟨-, rfl, -, rfl⟩ := h
    rfl
  | feedback s =>
    obtain ⟨-, rfl, -, rfl⟩ := h
    rfl
  | replay s => cases h
  | guided g inner ih => exact ih h

lemma Runs.isFair (h : s.Runs bound fair steps) : s.isFair = fair := by
  induction s with
  | renewing s => exact h.2.2.1
  | feedback s => exact h.2.2.1
  | replay s => cases h
  | guided g inner ih => exact ih h

/-- A strategy answers nothing, if nothing can run, or makes one more decision and answers the
number of an operation that can run. -/
lemma Runs.nextOperation (h : s.Runs bound fair steps) (ops : List Operation) :
    (∃ s', s.nextOperation ops = (.ok none, s') ∧ s'.Runs bound fair steps ∧
      ∀ op ∈ ops, op.isEnabled = false) ∨
    ∃ op ∈ ops, op.isEnabled = true ∧
      ∃ s', s.nextOperation ops = (.ok (some op.id), s') ∧ s'.Runs bound fair (steps + 1) := by
  induction s generalizing ops with
  | renewing s =>
    obtain ⟨valid, bound, fair, steps⟩ := h
    obtain ⟨e, none⟩ | ⟨op, mem, enabled, first, others, e, answer, valid'⟩ := valid.nextAmong ops
    · refine .inl ⟨renewing s, ?_, ⟨valid, bound, fair, steps⟩, none⟩
      simp [Strategy.nextOperation, Scheduler.nextOperation, e]
    · refine .inr ⟨op, mem, enabled, renewing { s with
        generator := (s.generator.next (first :: others)).2
        scheduledSteps := s.scheduledSteps + 1 }, ?_, valid', bound, fair, congrArg (· + 1) steps⟩
      simp [Strategy.nextOperation, Scheduler.nextOperation, e, answer, Except.map]
  | feedback s =>
    obtain ⟨valid, bound, fair, steps⟩ := h
    obtain ⟨e, none⟩ | ⟨op, mem, enabled, first, others, e, answer, valid'⟩ := valid.nextAmong ops
    · refine .inl ⟨feedback s, ?_, ⟨valid, bound, fair, steps⟩, none⟩
      simp [Strategy.nextOperation, Scheduler.nextOperation, e]
    · refine .inr ⟨op, mem, enabled, feedback { s with
        current := { s.current with schedule := (s.current.schedule.next (first :: others)).2 }
        scheduledSteps := s.scheduledSteps + 1
        branching := s.branching.push (first :: others).length }, ?_,
        valid', bound, fair, congrArg (· + 1) steps⟩
      simp [Strategy.nextOperation, Scheduler.nextOperation, e, answer, Except.map]
  | replay s => cases h
  | guided g inner ih =>
    obtain ⟨s', answer, runs, none⟩ | ⟨op, mem, enabled, s', answer, runs⟩ := ih h (g.shown ops)
    · refine .inl ⟨guided g s', ?_, runs, fun op mem => ?_⟩
      · rw [Strategy.nextOperation, answer]
        rfl
      · -- Operations are held back only while another can run.
        by_contra enabled
        rw [Bool.not_eq_false] at enabled
        obtain ⟨op', mem', enabled'⟩ := Guidance.exists_enabled_shown (g := g) mem enabled
        rw [none op' mem'] at enabled'
        cases enabled'
    · refine .inr ⟨op, Guidance.mem_of_mem_shown mem, enabled, guided g s', ?_, runs⟩
      rw [Strategy.nextOperation, answer]
      rfl

lemma Runs.nextBool (h : s.Runs bound fair steps) (maxValue : UInt64) :
    ∃ b s', s.nextBool maxValue = (.ok b, s') ∧ s'.Runs bound fair (steps + 1) := by
  induction s with
  | renewing s =>
    obtain ⟨valid, bound, fair, steps⟩ := h
    exact ⟨_, _, rfl, valid, bound, fair, congrArg (· + 1) steps⟩
  | feedback s =>
    obtain ⟨valid, bound, fair, steps⟩ := h
    exact ⟨_, _, rfl, valid, bound, fair, congrArg (· + 1) steps⟩
  | replay s => cases h
  | guided g inner ih =>
    obtain ⟨b, s', answer, runs⟩ := ih h
    refine ⟨b, guided g s', ?_, runs⟩
    rw [Strategy.nextBool, answer]
    rfl

/-- A number that a strategy answers is below the bound asked for, if that is one. -/
lemma Runs.nextInt (h : s.Runs bound fair steps) (maxValue : UInt64) :
    ∃ n s', s.nextInt maxValue = (.ok n, s') ∧ (maxValue = 0 ∨ n < maxValue) ∧
      s'.Runs bound fair (steps + 1) := by
  induction s with
  | renewing s =>
    obtain ⟨valid, bound, fair, steps⟩ := h
    exact ⟨_, _, rfl, ChoiceStream.nextInt_lt, valid, bound, fair, congrArg (· + 1) steps⟩
  | feedback s =>
    obtain ⟨valid, bound, fair, steps⟩ := h
    exact ⟨_, _, rfl, ChoiceStream.nextInt_lt, valid, bound, fair, congrArg (· + 1) steps⟩
  | replay s => cases h
  | guided g inner ih =>
    obtain ⟨n, s', answer, lt, runs⟩ := ih h
    refine ⟨n, guided g s', ?_, lt, runs⟩
    rw [Strategy.nextInt, answer]
    rfl

lemma Runs.observe (h : s.Runs bound fair steps) (summary : RunSummary) :
    (s.observe summary).Runs bound fair steps := by
  induction s with
  | renewing s => exact h
  | feedback s =>
    simp only [Strategy.observe, Scheduler.observe]
    split <;> exact h
  | replay s => cases h
  | guided g inner ih => exact ih h

/-- Getting ready for a run sets the count back. -/
lemma Runs.prepare (h : s.Runs bound fair steps) :
    ∃ s', s.prepare = (true, s') ∧ s'.Runs bound fair 0 := by
  induction s with
  | renewing s =>
    obtain ⟨-, bound, fair, -⟩ := h
    exact ⟨_, rfl, ScheduleGenerator.valid_startIteration _ _, bound, fair, rfl⟩
  | feedback s =>
    obtain ⟨-, bound, fair, -⟩ := h
    obtain ⟨_, _, _, _, _, eq⟩ := FeedbackStrategy.exists_nextGenerator_eq (s := s)
    refine ⟨_, rfl, ScheduleGenerator.valid_startIteration _ _, ?_, ?_, rfl⟩
    · show s.nextGenerator.maxSteps = _
      rw [eq]
      exact bound
    · show s.nextGenerator.fair = _
      rw [eq]
      exact fair
  | replay s => cases h
  | guided g inner ih =>
    obtain ⟨s', answer, runs⟩ := ih h
    refine ⟨guided g s', ?_, runs⟩
    rw [Strategy.prepare, answer]
    rfl

end Strategy

/-- The strategy that settings ask for has their bound and has made no decision. -/
lemma Config.runs_of_buildStrategy {c : Config} {matcher : Option Matcher} {s : Strategy}
    (built : c.buildStrategy matcher = .ok s) : s.Runs c.maxSteps.toNat c.strategy.isFair 0 := by
  have renewing (kind : ScheduleKind) :
      (c.renewing kind).Runs c.maxSteps.toNat c.strategy.isFair 0 :=
    ⟨ScheduleGenerator.valid_generator kind _, rfl, rfl, rfl⟩
  have learning (kind : ScheduleKind) :
      (c.learning kind).Runs c.maxSteps.toNat c.strategy.isFair 0 :=
    ⟨ScheduleGenerator.valid_startIteration _ _, rfl, rfl, rfl⟩
  simp only [buildStrategy] at built
  cases e : c.strategy <;> simp only [e] at built
  case pattern =>
    cases matcher with
    | none => cases built
    | some matcher =>
      cases built
      exact e ▸ learning _
  all_goals
    cases built
    first
    | exact e ▸ renewing _
    | exact e ▸ learning _

end Interleaving
