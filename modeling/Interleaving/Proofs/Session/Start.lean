import Mathlib
import Interleaving.Proofs.Except
import Interleaving.Session.Explorer

/-!
# Before the first run

What a session is made of before its first run: under its own strategy, under a given one, or going on
from what is kept of another session.
-/

namespace Interleaving.Explorer

variable {σ S : Type} {config : Config} {program : Program σ}

/-- What a session is made of that starts under its own strategy. -/
lemma eq_start_of_new {x : Explorer σ Strategy} (h : Explorer.new config program = .ok x) :
    ∃ matcher strategy, config.validate = .ok () ∧ config.compilePattern = .ok matcher ∧
      config.buildStrategy matcher = .ok strategy ∧ x = start config program matcher strategy := by
  obtain ⟨⟨⟩, valid, h⟩ := bind_eq_ok.mp h
  obtain ⟨matcher, compiled, h⟩ := bind_eq_ok.mp h
  obtain ⟨strategy, built, h⟩ := bind_eq_ok.mp h
  cases h
  exact ⟨matcher, strategy, valid, compiled, built, rfl⟩

/-- What a session is made of that starts under a given strategy. -/
lemma eq_start_of_withStrategy {strategy : S} {x : Explorer σ S}
    (h : withStrategy config program strategy = .ok x) :
    ∃ matcher, config.validate = .ok () ∧ config.compilePattern = .ok matcher ∧
      x = start config program matcher strategy := by
  obtain ⟨⟨⟩, valid, h⟩ := bind_eq_ok.mp h
  obtain ⟨matcher, compiled, h⟩ := bind_eq_ok.mp h
  cases h
  exact ⟨matcher, valid, compiled, rfl⟩

/-- What a session is made of that goes on from a checkpoint. Its settings are those of the checkpoint
but for the number of runs, and its strategy has a seed of its own. -/
lemma eq_start_of_ofCheckpoint {c : Checkpoint} {iterations : Option UInt64} {x : Explorer σ Strategy}
    (h : ofCheckpoint c program iterations = .ok x) :
    ∃ config matcher strategy,
      config = { c.config with iterations := iterations.getD c.config.iterations } ∧
      config.validate = .ok () ∧ config.compilePattern = .ok matcher ∧
      { config with seed := c.resumeSeed }.buildStrategy matcher = .ok strategy ∧
      x = {
        start config program matcher strategy with
        coverage := ⟨c.coverage, c.iterationsCompleted⟩
        bugs := .ofReports c.bugs
        iterationsCompleted := c.iterationsCompleted
        totalSteps := c.totalSteps } := by
  obtain ⟨⟨⟩, valid, h⟩ := bind_eq_ok.mp h
  obtain ⟨matcher, compiled, h⟩ := bind_eq_ok.mp h
  obtain ⟨strategy, built, h⟩ := bind_eq_ok.mp h
  cases h
  exact ⟨_, matcher, strategy, rfl, valid, compiled, built, rfl⟩

end Interleaving.Explorer
