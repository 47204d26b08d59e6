import Mathlib
import Interleaving.Proofs.Schedule.Pct
import Interleaving.Proofs.Schedule.Pctcp
import Interleaving.Schedule.Generator

/-!
# Schedule generators

A generator of any kind picks one of the operations offered, if there are any (`Valid.next`). Only the
schedules over chains need an invariant for it, which holds at the beginning of every run.
-/

namespace Interleaving.ScheduleGenerator

/-- The chains of a schedule over chains are valid. -/
def Valid : ScheduleGenerator → Prop
  | random _ => True
  | pct _ => True
  | pctcp g => g.Valid

lemma valid_startIteration (g : ScheduleGenerator) (scheduleLength : Nat) :
    (g.startIteration scheduleLength).Valid := by
  cases g with
  | random g => trivial
  | pct g => trivial
  | pctcp g => exact g.valid_startIteration scheduleLength

lemma valid_generator (kind : ScheduleKind) (rng : Rng) : (kind.generator rng).1.Valid := by
  cases kind with
  | random => trivial
  | pct => trivial
  | pctcp => exact PctcpSchedule.valid_startIteration _ _

/-- A generator picks one of the operations offered, and stays valid. -/
lemma Valid.next {g : ScheduleGenerator} (V : g.Valid) {enabled : List Operation}
    (ne : enabled ≠ []) :
    (∃ op ∈ enabled, (g.next enabled).1 = .ok op.id) ∧ (g.next enabled).2.Valid := by
  cases g with
  | random g =>
    have lt := ChoiceStream.nextIndex_lt (List.length_pos_iff.mpr ne) g.choices
    refine ⟨⟨enabled[(g.choices.nextIndex enabled.length).1], List.getElem_mem lt, ?_⟩, trivial⟩
    simp only [ScheduleGenerator.next, Prod.map_fst, RandomSchedule.next, id,
      List.getElem?_eq_getElem lt]
  | pct g => exact ⟨g.next_mem ne, trivial⟩
  | pctcp g => exact PctcpSchedule.Valid.next V ne

end Interleaving.ScheduleGenerator
