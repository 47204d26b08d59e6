import Mathlib
import Interleaving.Proofs.Schedule.Copy
import Interleaving.Proofs.Schedule.Pct

/-!
# The number of demotions

A schedule that draws its change points one at a time demotes no more often in a run than it may
(`ScheduleGenerator.demotions_le`). The number is not looked at where something is demoted: no change is
drawn once all demotions have been made, and a change that is postponed is still the same one
(`Budgeted`). Where the changes fall does not matter, so the sampler may answer whatever it likes.

What a pick demotes is read off what is offered and the state before it, and besides taking note of what
is offered the pick changes no priority but that one (`PctSchedule.prioritized_next`,
`PctcpSchedule.chains_next`).
-/

namespace Interleaving

/-- No more demotions have been made than are allowed, and fewer if another one is to come. -/
structure Budgeted (limit made : Nat) (point : Option Nat) : Prop where
  le : made ≤ limit
  lt : point.isSome → made < limit

namespace Budgeted

variable {limit made : Nat} {point : Option Nat}

lemma sampleNext (le : made ≤ limit) (length steps : Nat) (choices : ChoiceStream) :
    Budgeted limit made (ChangePoint.sampleNext (limit - made) length steps choices).1 := by
  refine ⟨le, fun some => ?_⟩
  rw [ChangePoint.sampleNext] at some
  split at some
  · cases some
  · next left => exact Nat.lt_of_sub_ne_zero left

/-- At which step the next change is to come does not matter. -/
lemma move (h : Budgeted limit made point) {point' : Option Nat}
    (same : point'.isSome → point.isSome) : Budgeted limit made point' :=
  ⟨h.le, fun some => h.lt (same some)⟩

end Budgeted

/-- The next change, if one is to come, comes at another step. -/
def ChangePoints.redrawn (point : Nat) : ChangePoints → ChangePoints
  | fixed points => fixed points
  | next due => next (due.map fun _ => point)

namespace PctSchedule

variable {g : PctSchedule} {enabled : List Operation} {limit made : Nat}

/-- The operation that is demoted where some operations are offered, all of them seen, if one is. -/
def due? (g : PctSchedule) (enabled : List Operation) : Option OperationId :=
  if g.changePoints.contains g.steps && enabled.length != 1 then g.highest? enabled else none

/-- The operation that is demoted when one of some operations is to be picked, if one is. -/
def demoted? (g : PctSchedule) (enabled : List Operation) : Option OperationId :=
  (enabled.foldl (fun g op => g.discover op.id) g).due? enabled

def redrawn (point : Nat) (g : PctSchedule) : PctSchedule :=
  { g with changePoints := g.changePoints.redrawn point }

/-- Taking note of the operations offered changes nothing but the priorities. -/
lemma exists_discoverAll_eq (g : PctSchedule) (ops : List Operation) :
    ∃ prioritized choices, ops.foldl (fun g op => g.discover op.id) g =
      { g with prioritized := prioritized, priorityChoices := choices } := by
  induction ops generalizing g with
  | nil => exact ⟨_, _, rfl⟩
  | cons op ops ih =>
    have first : ∃ prioritized choices, g.discover op.id =
        { g with prioritized := prioritized, priorityChoices := choices } := by
      rw [discover]
      split
      · exact ⟨_, _, rfl⟩
      · split <;> exact ⟨_, _, rfl⟩
    obtain ⟨prioritized, choices, eq⟩ := first
    obtain ⟨prioritized', choices', eq'⟩ := ih (g.discover op.id)
    exact ⟨prioritized', choices', by rw [List.foldl_cons, eq', eq]⟩

/-- A change demotes what is due; where nothing is, at most the change points are other ones. -/
lemma change_eq (g : PctSchedule) (enabled : List Operation) :
    g.change enabled =
      match g.due? enabled with
      | some id =>
        if g.sampling = .shuffled then g.demote id else (g.demote id).sampleChangePoints
      | none =>
        if g.changePoints.contains g.steps && enabled.length == 1 then
          { g with changePoints := g.changePoints.postpone g.steps }
        else g := by
  rw [change, due?]
  cases g.changePoints.contains g.steps with
  | false => rfl
  | true =>
    cases single : enabled.length == 1 with
    | true => simp [bne, single]
    | false =>
      simp only [bne, single, Bool.not_true, Bool.not_false, Bool.and_self, if_true,
        Bool.false_eq_true, if_false, Bool.and_false]
      cases g.highest? enabled with
      | none => rfl
      | some id => cases g.sampling <;> rfl

/-- Once the operations offered have priorities, a pick changes these only by what it demotes. -/
lemma prioritized_next (g : PctSchedule) (enabled : List Operation) :
    (g.next enabled).2.prioritized =
      match g.demoted? enabled with
      | some id =>
        (enabled.foldl (fun g op => g.discover op.id) g).prioritized.filter (· != id) ++ [id]
      | none => (enabled.foldl (fun g op => g.discover op.id) g).prioritized := by
  have picked : (g.next enabled).2.prioritized =
      ((enabled.foldl (fun g op => g.discover op.id) g).change enabled).prioritized := by
    rw [next]
    split <;> rfl
  rw [picked, change_eq, demoted?]
  generalize enabled.foldl (fun g op => g.discover op.id) g = g'
  cases g'.due? enabled with
  | none =>
    dsimp only
    split <;> rfl
  | some id =>
    dsimp only
    split
    · rfl
    · exact prioritized_sampleChangePoints

/-- So many demotions have been made of those allowed, and the next one is drawn only if there is one
left. -/
structure IsBudgeted (limit made : Nat) (g : PctSchedule) : Prop where
  sampling : g.sampling = .geometric
  switchPoints : g.maxSwitchPoints = limit
  inversions : g.inversions = made
  point : ∃ point, g.changePoints = .next point ∧ Budgeted limit made point

lemma IsBudgeted.redrawn (h : g.IsBudgeted limit made) (point : Nat) :
    (g.redrawn point).IsBudgeted limit made := by
  obtain ⟨due, points, budgeted⟩ := h.point
  refine ⟨h.sampling, h.switchPoints, h.inversions, due.map fun _ => point, ?_, budgeted.move ?_⟩
  · rw [PctSchedule.redrawn, points]
    rfl
  · cases due <;> exact id

lemma isBudgeted_sampleChangePoints (sampling : g.sampling = .geometric)
    (le : g.inversions ≤ g.maxSwitchPoints) :
    g.sampleChangePoints.IsBudgeted g.maxSwitchPoints g.inversions := by
  have drawn : g.sampleChangePoints = { g with
      changePoints := .next (ChangePoint.sampleNext (g.maxSwitchPoints - g.inversions)
        g.scheduleLength g.steps g.switchChoices).1
      switchChoices := (ChangePoint.sampleNext (g.maxSwitchPoints - g.inversions)
        g.scheduleLength g.steps g.switchChoices).2 } := by
    simp only [sampleChangePoints, sampling]
  rw [drawn]
  exact ⟨sampling, rfl, rfl, _, rfl, .sampleNext le ..⟩

lemma isBudgeted_startIteration (sampling : g.sampling = .geometric) (scheduleLength : Nat) :
    (g.startIteration scheduleLength).IsBudgeted g.maxSwitchPoints 0 :=
  isBudgeted_sampleChangePoints (g := { g with
    priorityChoices := g.priorityChoices.rewind
    switchChoices := g.switchChoices.rewind
    scheduleLength := max g.scheduleLength scheduleLength
    prioritized := []
    inversions := 0
    steps := 0 }) sampling (Nat.zero_le _)

/-- Where a change comes at this step, one has been drawn. -/
lemma isSome_of_contains {point : Option Nat} {b : Bool}
    (now : ((ChangePoints.next point).contains g.steps && b) = true) : point.isSome := by
  have now : (point == some g.steps) = true := ((Bool.and_eq_true ..).mp now).1
  rw [eq_of_beq now]
  rfl

/-- A change that demotes something is one of those that are left. -/
lemma IsBudgeted.change (h : g.IsBudgeted limit made) (enabled : List Operation) :
    (g.change enabled).IsBudgeted limit (made + if (g.due? enabled).isSome then 1 else 0) := by
  obtain ⟨sampling, rfl, rfl, point, points, budgeted⟩ := h
  rw [change_eq]
  cases due : g.due? enabled with
  | none =>
    rw [Option.isSome_none, if_neg Bool.false_ne_true, Nat.add_zero]
    dsimp only
    split
    · next now =>
      -- A change that is postponed has been drawn before.
      rw [points] at now ⊢
      exact ⟨sampling, rfl, rfl, _, rfl, budgeted.move fun _ => isSome_of_contains now⟩
    · exact ⟨sampling, rfl, rfl, point, points, budgeted⟩
  | some id =>
    have drawn : point.isSome := by
      rw [due?, points] at due
      split at due
      · next now => exact isSome_of_contains now
      · cases due
    rw [Option.isSome_some, if_pos rfl]
    dsimp only
    rw [if_neg (by rw [sampling]; decide)]
    exact isBudgeted_sampleChangePoints (g := g.demote id) sampling (budgeted.lt drawn)

lemma IsBudgeted.next (h : g.IsBudgeted limit made) (enabled : List Operation) :
    (g.next enabled).2.IsBudgeted limit (made + if (g.demoted? enabled).isSome then 1 else 0) := by
  obtain ⟨prioritized, choices, eq⟩ := exists_discoverAll_eq g enabled
  have seen : (enabled.foldl (fun g op => g.discover op.id) g).IsBudgeted limit made := by
    rw [eq]
    exact ⟨h.sampling, h.switchPoints, h.inversions, h.point⟩
  have changed := seen.change enabled
  rw [PctSchedule.next, demoted?]
  cases ((enabled.foldl (fun g op => g.discover op.id) g).change enabled).highest? enabled with
  | none => exact changed
  | some id => exact ⟨changed.sampling, changed.switchPoints, changed.inversions, changed.point⟩

end PctSchedule

namespace PctcpSchedule

variable {g : PctcpSchedule} {enabled : List Operation} {limit made : Nat}

/-- The chain that is demoted where some operations are offered, all of them in chains, if one is. -/
def due? (g : PctcpSchedule) (enabled : List Operation) : Option ChainId :=
  if g.nextChangePoint == some g.steps && enabled.length != 1 then (g.select? enabled).map (·.1)
  else none

/-- The chain that is demoted when one of some operations is to be picked, if one is. -/
def demoted? (g : PctcpSchedule) (enabled : List Operation) : Option ChainId :=
  match g.discover enabled with
  | (_, some _) => none
  | (g, none) => g.due? enabled

def redrawn (point : Nat) (g : PctcpSchedule) : PctcpSchedule :=
  { g with nextChangePoint := g.nextChangePoint.map fun _ => point }

/-- Taking note of the operations offered changes nothing but the chains. -/
lemma exists_discover_eq (g : PctcpSchedule) (ops : List Operation) :
    ∃ chains pending choices, (g.discover ops).1 =
      { g with chains := chains, pending := pending, priorityChoices := choices } := by
  induction ops generalizing g with
  | nil => exact ⟨_, _, _, rfl⟩
  | cons op ops ih =>
    rw [discover]
    split
    · exact ih g
    · dsimp only
      split
      · obtain ⟨chains, pending, choices, eq⟩ := ih { g with
          chains := (g.chains.offer op.id op.clock g.priorityChoices).1.1
          pending := g.pending.insert op.id g.chains.ops.size
          priorityChoices := (g.chains.offer op.id op.clock g.priorityChoices).2 }
        exact ⟨chains, pending, choices, eq⟩
      · exact ⟨_, _, _, rfl⟩

/-- A change demotes what is due; where nothing is, at most the next change point is another one. -/
lemma change_eq (g : PctcpSchedule) (enabled : List Operation) :
    g.change enabled =
      match g.due? enabled with
      | some chain =>
        sampleChangePoint
          { g with chains := g.chains.demote chain, inversions := g.inversions + 1 }
      | none =>
        if g.nextChangePoint == some g.steps && enabled.length == 1 then
          { g with nextChangePoint := some (g.steps + 1) }
        else g := by
  rw [change, due?, bne]
  cases g.nextChangePoint == some g.steps with
  | false => rfl
  | true =>
    cases single : enabled.length == 1 with
    | true => simp [bne, single]
    | false =>
      simp only [bne, single, Bool.not_true, Bool.not_false, Bool.and_self, if_true,
        Bool.false_eq_true, if_false, Bool.and_false]
      cases g.select? enabled <;> rfl

/-- Once the operations offered are in chains, a pick changes these only by what it demotes. -/
lemma chains_next (g : PctcpSchedule) (enabled : List Operation) :
    (g.next enabled).2.chains =
      match g.demoted? enabled with
      | some chain => (g.discover enabled).1.chains.demote chain
      | none => (g.discover enabled).1.chains := by
  rw [next, demoted?]
  obtain ⟨g', fault⟩ := g.discover enabled
  cases fault with
  | some fault => rfl
  | none =>
    have picked : ((g'.change enabled).pick enabled).2.chains = (g'.change enabled).chains := by
      rw [pick]
      split <;> rfl
    dsimp only
    rw [picked, change_eq]
    cases g'.due? enabled with
    | none =>
      dsimp only
      split <;> rfl
    | some chain => rfl

/-- So many demotions have been made of those allowed, and the next one is drawn only if there is one
left. -/
structure IsBudgeted (limit made : Nat) (g : PctcpSchedule) : Prop where
  switchPoints : g.maxSwitchPoints = limit
  inversions : g.inversions = made
  point : Budgeted limit made g.nextChangePoint

lemma IsBudgeted.redrawn (h : g.IsBudgeted limit made) (point : Nat) :
    (g.redrawn point).IsBudgeted limit made := by
  refine ⟨h.switchPoints, h.inversions, h.point.move ?_⟩
  rw [PctcpSchedule.redrawn, Option.isSome_map]
  exact id

lemma isBudgeted_sampleChangePoint (le : g.inversions ≤ g.maxSwitchPoints) :
    g.sampleChangePoint.IsBudgeted g.maxSwitchPoints g.inversions :=
  ⟨rfl, rfl, .sampleNext le ..⟩

lemma isBudgeted_startIteration (scheduleLength : Nat) :
    (g.startIteration scheduleLength).IsBudgeted g.maxSwitchPoints 0 :=
  isBudgeted_sampleChangePoint (g := { g with
    priorityChoices := g.priorityChoices.rewind
    switchChoices := g.switchChoices.rewind
    scheduleLength := max g.scheduleLength scheduleLength
    chains := .empty
    pending := .empty
    scheduled := .empty
    inversions := 0
    steps := 0 }) (Nat.zero_le _)

lemma isSome_of_due {b : Bool} (now : (g.nextChangePoint == some g.steps && b) = true) :
    g.nextChangePoint.isSome := by
  rw [eq_of_beq ((Bool.and_eq_true ..).mp now).1]
  rfl

lemma IsBudgeted.change (h : g.IsBudgeted limit made) (enabled : List Operation) :
    (g.change enabled).IsBudgeted limit (made + if (g.due? enabled).isSome then 1 else 0) := by
  obtain ⟨rfl, rfl, budgeted⟩ := h
  rw [change_eq]
  cases due : g.due? enabled with
  | none =>
    rw [Option.isSome_none, if_neg Bool.false_ne_true, Nat.add_zero]
    dsimp only
    split
    · next now => exact ⟨rfl, rfl, budgeted.move fun _ => isSome_of_due now⟩
    · exact ⟨rfl, rfl, budgeted⟩
  | some chain =>
    have drawn : g.nextChangePoint.isSome := by
      rw [due?] at due
      split at due
      · next now => exact isSome_of_due now
      · cases due
    rw [Option.isSome_some, if_pos rfl]
    exact isBudgeted_sampleChangePoint
      (g := { g with chains := g.chains.demote chain, inversions := g.inversions + 1 })
      (budgeted.lt drawn)

lemma IsBudgeted.next (h : g.IsBudgeted limit made) (enabled : List Operation) :
    (g.next enabled).2.IsBudgeted limit (made + if (g.demoted? enabled).isSome then 1 else 0) := by
  obtain ⟨chains, pending, choices, eq⟩ := exists_discover_eq g enabled
  have seen : (g.discover enabled).1.IsBudgeted limit made := by
    rw [eq]
    exact ⟨h.switchPoints, h.inversions, h.point⟩
  rw [PctcpSchedule.next, demoted?]
  cases found : g.discover enabled with
  | mk g' fault =>
    rw [found] at seen
    cases fault with
    | some fault => exact seen
    | none =>
      have changed := seen.change enabled
      dsimp only
      rw [pick]
      cases (g'.change enabled).choose? enabled with
      | none => exact changed
      | some => exact ⟨changed.switchPoints, changed.inversions, changed.point⟩

end PctcpSchedule

namespace ScheduleGenerator

variable {g : ScheduleGenerator} {limit made : Nat}

/-- Whether something is demoted when one of some operations is to be picked. -/
def demotes (enabled : List Operation) : ScheduleGenerator → Bool
  | random _ => false
  | pct g => (g.demoted? enabled).isSome
  | pctcp g => (g.demoted? enabled).isSome

/-- The next change, if one is to come, comes at another step. -/
def redrawn (point : Nat) : ScheduleGenerator → ScheduleGenerator
  | random g => random g
  | pct g => pct (g.redrawn point)
  | pctcp g => pctcp (g.redrawn point)

/-- What happens to a generator. -/
inductive Call where
  /-- A run starts. The runs so far had up to `scheduleLength` steps. -/
  | start (scheduleLength : Nat)
  /-- One of some operations is to be picked. -/
  | next (enabled : List Operation)
  /-- The sampler gave another step for the next change than it would have given by itself. -/
  | redraw (point : Nat)

/-- The generator after a call, and how many demotions there have been since the start of the run. -/
def tally : ScheduleGenerator × Nat → Call → ScheduleGenerator × Nat
  | (g, _), .start scheduleLength => (g.startIteration scheduleLength, 0)
  | (g, made), .next enabled =>
    ((g.next enabled).2, made + if g.demotes enabled then 1 else 0)
  | (g, made), .redraw point => (g.redrawn point, made)

/-- A schedule that draws its change points one at a time has made so many demotions of those
allowed. -/
def IsBudgeted (limit made : Nat) : ScheduleGenerator → Prop
  | random _ => False
  | pct g => g.IsBudgeted limit made
  | pctcp g => g.IsBudgeted limit made

lemma IsBudgeted.le (h : g.IsBudgeted limit made) : made ≤ limit := by
  cases g with
  | random => exact h.elim
  | pct g =>
    obtain ⟨_, _, budgeted⟩ := PctSchedule.IsBudgeted.point h
    exact budgeted.le
  | pctcp g => exact (PctcpSchedule.IsBudgeted.point h).le

lemma isBudgeted_startIteration
    (kind : g.settings.1 = .pct limit .geometric ∨ g.settings.1 = .pctcp limit)
    (scheduleLength : Nat) : (g.startIteration scheduleLength).IsBudgeted limit 0 := by
  cases g with
  | random => rcases kind with kind | kind <;> cases kind
  | pct g =>
    rcases kind with kind | kind
    · obtain ⟨rfl, sampling⟩ := ScheduleKind.pct.inj kind
      exact PctSchedule.isBudgeted_startIteration sampling scheduleLength
    · cases kind
  | pctcp g =>
    rcases kind with kind | kind
    · cases kind
    · cases kind
      exact PctcpSchedule.isBudgeted_startIteration scheduleLength

/-- The budget is kept by one call, whatever has been done before. -/
lemma IsBudgeted.tally (h : g.IsBudgeted limit made) (call : Call) :
    (tally (g, made) call).1.IsBudgeted limit (tally (g, made) call).2 := by
  cases g with
  | random => exact h.elim
  | pct g =>
    have h : g.IsBudgeted limit made := h
    cases call with
    | start scheduleLength =>
      exact h.switchPoints ▸ PctSchedule.isBudgeted_startIteration h.sampling scheduleLength
    | next enabled => exact h.next enabled
    | redraw point => exact h.redrawn point
  | pctcp g =>
    have h : g.IsBudgeted limit made := h
    cases call with
    | start scheduleLength =>
      exact h.switchPoints ▸ PctcpSchedule.isBudgeted_startIteration scheduleLength
    | next enabled => exact h.next enabled
    | redraw point => exact h.redrawn point

/-- From the start of a run on, no more than the allowed number of demotions are made up to the start of
the next run, whatever the streams hold, whatever is offered and wherever the changes fall. -/
theorem demotions_le
    (kind : g.settings.1 = .pct limit .geometric ∨ g.settings.1 = .pctcp limit)
    (scheduleLength : Nat) (calls : List Call) :
    (calls.foldl tally (g.startIteration scheduleLength, 0)).2 ≤ limit := by
  have run : ∀ (g : ScheduleGenerator) (made : Nat), g.IsBudgeted limit made →
      (calls.foldl tally (g, made)).1.IsBudgeted limit (calls.foldl tally (g, made)).2 := by
    induction calls with
    | nil => exact fun _ _ h => h
    | cons call calls ih => exact fun _ _ h => ih _ _ (h.tally call)
  exact (run _ _ (isBudgeted_startIteration kind scheduleLength)).le

/-- The one change that is allowed waits until there is something to choose from, and no other follows,
wherever it would fall. -/
theorem demotions_of_three_picks :
    let a := Operation.ofActor 1 "a"
    let b := Operation.ofActor 2 "b"
    let g := pct (.ofStreams 1 .geometric 3 (.ofValues #[0] 7) (.ofValues #[5] 7))
    let calls : List Call :=
      [.redraw 0, .next [a], .next [a, b], .redraw 2, .next [a, b]]
    (calls.foldl tally (g.startIteration 3, 0)).2 = 1 := by
  intro a b g calls
  have le : (calls.foldl tally (g.startIteration 3, 0)).2 ≤ 1 := demotions_le (.inl rfl) 3 calls
  have made : 1 ≤ (calls.foldl tally (g.startIteration 3, 0)).2 := by decide
  exact le_antisymm le made

end ScheduleGenerator

end Interleaving
