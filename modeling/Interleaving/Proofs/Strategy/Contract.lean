import Interleaving.Proofs.Strategy.Steps

/-!
# What a strategy answers

Whatever has been asked of a strategy before, it picks an operation that can run whenever there is one,
and nothing otherwise; it never fails (`nextOperation_of_reachable`). Each request keeps a strategy in
the middle of a run, after some number of decisions (`Reachable.runs`), and there it answers so.
-/

namespace Interleaving

namespace Strategy

variable {s : Strategy} {bound steps : Nat} {fair : Bool}

/-- The states that a strategy can come to by requests, in any order. -/
inductive Reachable (start : Strategy) : Strategy → Prop where
  | start : Reachable start start
  | nextOperation {s : Strategy} (ops : List Operation) :
    Reachable start s → Reachable start (s.nextOperation ops).2
  | nextBool {s : Strategy} (maxValue : UInt64) :
    Reachable start s → Reachable start (s.nextBool maxValue).2
  | nextInt {s : Strategy} (maxValue : UInt64) :
    Reachable start s → Reachable start (s.nextInt maxValue).2
  | observe {s : Strategy} (summary : RunSummary) :
    Reachable start s → Reachable start (s.observe summary)
  | prepare {s : Strategy} :
    Reachable start s → Reachable start s.prepare.2

lemma Reachable.runs {start : Strategy} (reached : Reachable start s)
    (h : start.Runs bound fair steps) : ∃ steps', s.Runs bound fair steps' := by
  induction reached with
  | start => exact ⟨steps, h⟩
  | nextOperation ops _ ih =>
    obtain ⟨steps', h⟩ := ih
    obtain ⟨s', answer, h, _⟩ | ⟨op, _, _, s', answer, h⟩ := h.nextOperation ops
    · exact ⟨steps', answer ▸ h⟩
    · exact ⟨steps' + 1, answer ▸ h⟩
  | nextBool maxValue _ ih =>
    obtain ⟨steps', h⟩ := ih
    obtain ⟨b, s', answer, h⟩ := h.nextBool maxValue
    exact ⟨steps' + 1, answer ▸ h⟩
  | nextInt maxValue _ ih =>
    obtain ⟨steps', h⟩ := ih
    obtain ⟨n, s', answer, _, h⟩ := h.nextInt maxValue
    exact ⟨steps' + 1, answer ▸ h⟩
  | observe summary _ ih =>
    obtain ⟨steps', h⟩ := ih
    exact ⟨steps', h.observe summary⟩
  | prepare _ ih =>
    obtain ⟨steps', h⟩ := ih
    obtain ⟨s', answer, h⟩ := h.prepare
    exact ⟨0, answer ▸ h⟩

end Strategy

/-- In every state that a strategy built from settings can come to, it answers nothing exactly if none
of the operations offered can run, and otherwise the number of one that can; it never fails. -/
theorem Strategy.nextOperation_of_reachable {c : Config} {matcher : Option Matcher}
    {start s : Strategy} (built : c.buildStrategy matcher = .ok start)
    (reached : Reachable start s) (ops : List Operation) :
    ((s.nextOperation ops).1 = .ok none ↔ ∀ op ∈ ops, op.isEnabled = false) ∧
      ((∃ op ∈ ops, op.isEnabled = true) →
        ∃ op ∈ ops, op.isEnabled = true ∧ (s.nextOperation ops).1 = .ok (some op.id)) ∧
      ∀ error, (s.nextOperation ops).1 ≠ .error error := by
  obtain ⟨steps, runs⟩ := reached.runs (c.runs_of_buildStrategy built)
  obtain ⟨s', answer, _, none⟩ | ⟨op, mem, enabled, s', answer, _⟩ := runs.nextOperation ops
  · refine ⟨⟨fun _ => none, fun _ => by rw [answer]⟩, ?_, fun error h => ?_⟩
    · rintro ⟨op, mem, enabled⟩
      rw [none op mem] at enabled
      cases enabled
    · rw [answer] at h
      cases h
  · refine ⟨⟨fun h => ?_, fun none => ?_⟩, fun _ => ?_, fun error h => ?_⟩
    · rw [answer] at h
      cases h
    · rw [none op mem] at enabled
      cases enabled
    · exact ⟨op, mem, enabled, by rw [answer]⟩
    · rw [answer] at h
      cases h

/-- A strategy that learns, over chains, has made a run with two operations, learnt from it and got
ready for the next. Of a disabled operation and one that can run it picks the latter. -/
theorem Strategy.nextOperation_after_prepare :
    let c := { Config.standard with strategy := .feedbackPctcp }
    let first := Operation.ofActor 1 "a"
    let second := Operation.ofActor 2 "b"
    let start := c.learning (.pctcp 10)
    let s := ((start.nextOperation [first, second]).2.observe .empty).prepare.2
    c.buildStrategy none = .ok start ∧ Reachable start s ∧
      (s.nextOperation [{ first with status := .disabled }, second]).1 = .ok (some 2) := by
  intro c first second start s
  have built : c.buildStrategy none = .ok start := rfl
  have reached : Reachable start s := .prepare (.observe _ (.nextOperation _ .start))
  refine ⟨built, reached, ?_⟩
  obtain ⟨op, mem, enabled, answer⟩ := (nextOperation_of_reachable built reached
    [{ first with status := .disabled }, second]).2.1 ⟨second, by simp, rfl⟩
  rcases List.mem_cons.mp mem with rfl | mem
  · cases enabled
  · cases List.mem_singleton.mp mem
    exact answer

end Interleaving
