import Mathlib
import Interleaving.Proofs.Choice.Tape
import Interleaving.Proofs.Schedule.Generator

/-!
# Schedules on tape

Every step of a schedule repeats on a tape of the choices it draws: what is drawn depends on what is
offered and on the state beside the streams, and a schedule on tape has the same state. With the
choices and the settings of another, a schedule begins a run as that one does on tape
(`PctSchedule.withStreams_onTape`, `PctcpSchedule.withStreams_onTape`).
-/

namespace Interleaving

variable {t u : Tape} {kept : ScheduleKind × Nat}

namespace ChangePoint

lemma repeatsAt_shuffleDown (i : Nat) (steps : Array Nat) (s : ChoiceStream) :
    (ChoiceStream.recorder t).RepeatsAt (shuffleDown i steps) s := by
  induction i generalizing steps s with
  | zero => exact .pure steps
  | succ i ih =>
    exact (s.repeatsAt_nextIndex (i + 2)).bind
      (g := fun j => shuffleDown i (steps.swapIfInBounds (i + 1) j)) (ih _ _)

lemma repeatsAt_sampleAll (count length : Nat) (s : ChoiceStream) :
    (ChoiceStream.recorder t).RepeatsAt (sampleAll count length) s :=
  (repeatsAt_shuffleDown (length - 1) (Array.range length) s).map fun steps =>
    SortedSet.ofList (steps.toList.take count)

lemma repeatsAt_sampleNext (left length steps : Nat) (s : ChoiceStream) :
    (ChoiceStream.recorder t).RepeatsAt (sampleNext left length steps) s := by
  by_cases h : left = 0
  · exact (Recorder.RepeatsAt.pure none).congr (if_pos h) (if_pos h)
  · exact (s.repeatsAt_nextDouble.map fun x =>
      some (steps + Geometric.sample (probability left length steps) x)).congr (if_neg h) (if_neg h)

end ChangePoint

lemma ChainSet.repeatsAt_offer (chains : ChainSet) (id : OperationId) (clock : VectorClock)
    (s : ChoiceStream) : (ChoiceStream.recorder t).RepeatsAt (chains.offer id clock) s := by
  cases find : (chains.add id clock).order.find? fun c =>
      ((chains.add id clock).tail? c).any ((chains.add id clock).before · chains.ops.size) with
  | some c =>
    have run : ∀ s, chains.offer id clock s =
        (((chains.add id clock).append c chains.ops.size, none), s) := by
      intro s
      simp only [offer, place, find]
    exact (Recorder.RepeatsAt.pure _).congr (run _) (run _)
  | none =>
    by_cases first : (chains.add id clock).order.isEmpty = true
    · have run : ∀ s, chains.offer id clock s =
          (((chains.add id clock).beginChain chains.ops.size 0).reduce, s) := by
        intro s
        simp only [offer, place, find, if_pos first]
      exact (Recorder.RepeatsAt.pure _).congr (run _) (run _)
    · have run : ∀ s, chains.offer id clock s =
          (((chains.add id clock).beginChain chains.ops.size
              ((s.nextIndex (chains.add id clock).order.length).1 + 1)).reduce,
            (s.nextIndex (chains.add id clock).order.length).2) := by
        intro s
        simp only [offer, place, find, if_neg first]
      exact ((s.repeatsAt_nextIndex _).map fun i =>
        ((chains.add id clock).beginChain chains.ops.size (i + 1)).reduce).congr (run _) (run _)

namespace PctSchedule

/-- What stays as it is throughout a run. -/
def settings (g : PctSchedule) : ScheduleKind × Nat :=
  (.pct g.maxSwitchPoints g.sampling, g.scheduleLength)

/-- Both streams are put on a tape. -/
def recorder (t u : Tape) (kept : ScheduleKind × Nat) : Recorder PctSchedule where
  onTape g :=
    { g with
      priorityChoices := (ChoiceStream.recorder t).onTape g.priorityChoices
      switchChoices := (ChoiceStream.recorder u).onTape g.switchChoices }
  Within g := (ChoiceStream.recorder t).Within g.priorityChoices ∧
    (ChoiceStream.recorder u).Within g.switchChoices
  Sound g := (ChoiceStream.recorder t).Sound g.priorityChoices ∧
    (ChoiceStream.recorder u).Sound g.switchChoices ∧ g.settings = kept

variable {enabled : List Operation}

/-- Change points are drawn from the one stream. -/
lemma repeatsAt_switch {α : Type} {g : PctSchedule} {draw : ChoiceStream → α × ChoiceStream}
    (h : (ChoiceStream.recorder u).RepeatsAt draw g.switchChoices) (points : α → ChangePoints) :
    (recorder t u kept).RepeatsAt (fun g =>
      ((), { g with
        changePoints := points (draw g.switchChoices).1
        switchChoices := (draw g.switchChoices).2 })) g := by
  refine ⟨fun w => ⟨w.1, h.within w.2⟩, fun w => ?_, fun w => ⟨w.1, h.sound w.2.1, w.2.2⟩⟩
  simp only [recorder, h.repeats w.2]

/-- Priorities are drawn from the other. -/
lemma repeatsAt_priority {α : Type} {g : PctSchedule} {draw : ChoiceStream → α × ChoiceStream}
    (h : (ChoiceStream.recorder t).RepeatsAt draw g.priorityChoices)
    (prioritized : α → List OperationId → List OperationId) :
    (recorder t u kept).RepeatsAt (fun g =>
      ((), { g with
        prioritized := prioritized (draw g.priorityChoices).1 g.prioritized
        priorityChoices := (draw g.priorityChoices).2 })) g := by
  refine ⟨fun w => ⟨h.within w.1, w.2⟩, fun w => ?_, fun w => ⟨h.sound w.1, w.2⟩⟩
  simp only [recorder, h.repeats w.1]

lemma repeatsAt_sampleChangePoints (g : PctSchedule) :
    (recorder t u kept).RepeatsAt (fun g => ((), g.sampleChangePoints)) g := by
  cases h : g.sampling with
  | shuffled =>
    refine (repeatsAt_switch (ChangePoint.repeatsAt_sampleAll g.maxSwitchPoints g.scheduleLength _)
      .fixed).congr ?_ ?_ <;> simp only [sampleChangePoints, recorder, h]
  | geometric =>
    refine (repeatsAt_switch (ChangePoint.repeatsAt_sampleNext (g.maxSwitchPoints - g.inversions)
      g.scheduleLength g.steps _) .next).congr ?_ ?_ <;> simp only [sampleChangePoints, recorder, h]

lemma repeatsAt_discover (id : OperationId) (g : PctSchedule) :
    (recorder t u kept).RepeatsAt (fun g => ((), g.discover id)) g := by
  by_cases known : id ∈ g.prioritized
  · exact (Recorder.RepeatsAt.pure ()).congr (congrArg _ (if_pos known)) (congrArg _ (if_pos known))
  · by_cases first : g.prioritized.isEmpty = true
    · refine Recorder.RepeatsAt.congr (f := fun g => ((), { g with prioritized := [id] }))
        ⟨fun w => w, fun _ => rfl, fun w => w⟩ ?_ ?_
      · exact congrArg _ ((if_neg known).trans (if_pos first))
      · exact congrArg _ ((if_neg known).trans (if_pos first))
    · refine (repeatsAt_priority (g.priorityChoices.repeatsAt_nextIndex g.prioritized.length)
        fun i prioritized => prioritized.insertIdx (i + 1) id).congr ?_ ?_
      · exact congrArg _ ((if_neg known).trans (if_neg first))
      · exact congrArg _ ((if_neg known).trans (if_neg first))

lemma repeatsAt_discoverAll (ops : List Operation) (g : PctSchedule) :
    (recorder t u kept).RepeatsAt
      (fun g => ((), ops.foldl (fun g op => g.discover op.id) g)) g := by
  induction ops generalizing g with
  | nil => exact .pure ()
  | cons op ops ih =>
    exact (repeatsAt_discover op.id g).bind
      (g := fun _ g => ((), ops.foldl (fun g op => g.discover op.id) g)) (ih _)

lemma change_none {g : PctSchedule} (none : g.highest? enabled = none)
    (several : (enabled.length == 1) = false) : g.change enabled = g := by
  simp only [change, several, none, Bool.false_eq_true, if_false, ite_self]

lemma change_some {g : PctSchedule} (due : (!g.changePoints.contains g.steps) = false)
    (several : (enabled.length == 1) = false) {id : OperationId}
    (first : g.highest? enabled = some id) :
    g.change enabled =
      if g.sampling = .shuffled then g.demote id else (g.demote id).sampleChangePoints := by
  simp only [change, due, several, first, Bool.false_eq_true, if_false]
  cases g.sampling <;> rfl

lemma repeatsAt_change (enabled : List Operation) (g : PctSchedule) :
    (recorder t u kept).RepeatsAt (fun g => ((), g.change enabled)) g := by
  -- On the tape a schedule has the same change points, steps, priorities and sampling.
  let taped := (recorder t u kept).onTape g
  by_cases early : (!g.changePoints.contains g.steps) = true
  · exact (Recorder.RepeatsAt.pure ()).congr (congrArg _ (if_pos early)) (congrArg _ (if_pos early))
  by_cases single : (enabled.length == 1) = true
  · refine Recorder.RepeatsAt.congr
      (f := fun g => ((), { g with changePoints := g.changePoints.postpone g.steps }))
      ⟨fun w => w, fun _ => rfl, fun w => w⟩ ?_ ?_
    · exact congrArg _ ((if_neg early).trans (if_pos single))
    · exact congrArg _ ((if_neg early).trans (if_pos single))
  rw [Bool.not_eq_true] at early single
  cases first : g.highest? enabled with
  | none =>
    exact (Recorder.RepeatsAt.pure ()).congr (congrArg _ (change_none first single))
      (congrArg _ (change_none (g := taped) first single))
  | some id =>
    have demote : (recorder t u kept).RepeatsAt (fun g => ((), g.demote id)) g :=
      ⟨fun w => w, fun _ => rfl, fun w => w⟩
    have run := change_some early single first
    have run' := change_some (g := taped) early single first
    by_cases kind : g.sampling = .shuffled
    · exact demote.congr (congrArg _ (run.trans (if_pos kind))) (congrArg _ (run'.trans (if_pos kind)))
    · have redraw := demote.bind (g := fun _ g => ((), g.sampleChangePoints))
        (repeatsAt_sampleChangePoints _)
      exact redraw.congr (congrArg _ (run.trans (if_neg kind))) (congrArg _ (run'.trans (if_neg kind)))

/-- Runs the operation of highest priority. -/
def pick (enabled : List Operation) (g : PctSchedule) :
    Except StrategyError OperationId × PctSchedule :=
  match g.highest? enabled with
  | some id => (.ok id, { g with steps := g.steps + 1 })
  | none => (.error (.invariant "enabled operation missing from priority list"), g)

lemma repeatsAt_pick (enabled : List Operation) (g : PctSchedule) :
    (recorder t u kept).RepeatsAt (pick enabled) g := by
  cases first : g.highest? enabled with
  | none =>
    have run : ∀ g : PctSchedule, g.highest? enabled = none →
        pick enabled g = (.error (.invariant "enabled operation missing from priority list"), g) := by
      intro g first
      rw [pick, first]
    exact (Recorder.RepeatsAt.pure _).congr (run g first) (run _ first)
  | some id =>
    have run : ∀ g : PctSchedule, g.highest? enabled = some id →
        pick enabled g = (.ok id, { g with steps := g.steps + 1 }) := by
      intro g first
      rw [pick, first]
    have count : (recorder t u kept).RepeatsAt (fun g =>
        ((.ok id : Except StrategyError OperationId), { g with steps := g.steps + 1 })) g :=
      ⟨fun w => w, fun _ => rfl, fun w => w⟩
    exact count.congr (run g first) (run _ first)

/-- A decision draws nothing but new priorities and change points. -/
lemma repeatsAt_next (enabled : List Operation) (g : PctSchedule) :
    (recorder t u kept).RepeatsAt (fun g => g.next enabled) g :=
  (((repeatsAt_discoverAll enabled g).bind (g := fun _ g => ((), g.change enabled))
    (repeatsAt_change enabled _)).bind (g := fun _ g => pick enabled g) (repeatsAt_pick enabled _))

lemma settings_startIteration (g : PctSchedule) (scheduleLength : Nat) :
    (g.startIteration scheduleLength).settings =
      (.pct g.maxSwitchPoints g.sampling, max g.scheduleLength scheduleLength) := by
  cases kind : g.sampling <;> simp only [settings, startIteration, sampleChangePoints, kind]

lemma sound_startIteration (g : PctSchedule) (scheduleLength : Nat) :
    (recorder t u (g.startIteration scheduleLength).settings).Sound
      (g.startIteration scheduleLength) :=
  (repeatsAt_sampleChangePoints _).sound
    ⟨Nat.zero_le _, Nat.zero_le _, (g.settings_startIteration scheduleLength).symm⟩

lemma settings_next (g : PctSchedule) (scheduleLength : Nat) (enabled : List Operation) :
    ((g.startIteration scheduleLength).next enabled).2.settings =
      (g.startIteration scheduleLength).settings :=
  ((repeatsAt_next (t := (g.priorityChoices.tape)) (u := g.switchChoices.tape) enabled _).sound
    (g.sound_startIteration scheduleLength)).2.2

lemma settings_copied (g : PctSchedule) (rng : Rng) : (g.copied rng).1.settings = g.settings :=
  (settings_startIteration _ _).trans (congrArg _ (max_self _))

/-- A schedule with the settings of another starts like it does, if it gets the choices that the other
has recorded. -/
lemma withStreams_onTape {g start : PctSchedule} {scheduleLength : Nat}
    (within : (recorder t u kept).Within (start.startIteration scheduleLength))
    (same : g.settings = (start.startIteration scheduleLength).settings) :
    g.withStreams ⟨t.values, 0, t.rng⟩ ⟨u.values, 0, u.rng⟩ =
      (recorder t u kept).onTape (start.startIteration scheduleLength) := by
  rw [settings_startIteration] at same
  obtain ⟨kind, length⟩ := Prod.mk.inj same
  obtain ⟨points, sampling⟩ := ScheduleKind.pct.inj kind
  refine Eq.trans ?_ (congrArg Prod.snd ((repeatsAt_sampleChangePoints _).repeats within))
  rw [withStreams, ofStreams, startIteration, points, sampling, length, max_self]
  -- The change points of the run before do not matter.
  cases start.sampling <;> rfl

/-- A schedule that already reckons with runs as long starts as it is made. -/
lemma startIteration_eq_withStreams {g : PctSchedule} {scheduleLength : Nat}
    (le : scheduleLength ≤ g.scheduleLength) :
    g.startIteration scheduleLength =
      g.withStreams g.priorityChoices.rewind g.switchChoices.rewind := by
  rw [withStreams, ofStreams, startIteration, startIteration, max_eq_left le, max_self]
  cases g.sampling <;> rfl

/-- On tape, a schedule starts anew as it has started, unless there have been longer runs since. -/
lemma startIteration_onTape {start : PctSchedule} {scheduleLength longest : Nat}
    (within : (recorder t u kept).Within (start.startIteration scheduleLength))
    (le : longest ≤ scheduleLength) :
    ((recorder t u kept).onTape (start.startIteration scheduleLength)).startIteration longest =
      (recorder t u kept).onTape (start.startIteration scheduleLength) := by
  have length := (Prod.mk.inj (start.settings_startIteration scheduleLength)).2
  have le : longest ≤ (start.startIteration scheduleLength).scheduleLength :=
    length ▸ le.trans (Nat.le_max_right _ _)
  exact (startIteration_eq_withStreams (g := (recorder t u kept).onTape _) le).trans
    (withStreams_onTape within rfl)

end PctSchedule

namespace PctcpSchedule

/-- What stays as it is throughout a run. -/
def settings (g : PctcpSchedule) : ScheduleKind × Nat := (.pctcp g.maxSwitchPoints, g.scheduleLength)

/-- Both streams are put on a tape. -/
def recorder (t u : Tape) (kept : ScheduleKind × Nat) : Recorder PctcpSchedule where
  onTape g :=
    { g with
      priorityChoices := (ChoiceStream.recorder t).onTape g.priorityChoices
      switchChoices := (ChoiceStream.recorder u).onTape g.switchChoices }
  Within g := (ChoiceStream.recorder t).Within g.priorityChoices ∧
    (ChoiceStream.recorder u).Within g.switchChoices
  Sound g := (ChoiceStream.recorder t).Sound g.priorityChoices ∧
    (ChoiceStream.recorder u).Sound g.switchChoices ∧ g.settings = kept

variable {enabled : List Operation}

lemma repeatsAt_sampleChangePoint (g : PctcpSchedule) :
    (recorder t u kept).RepeatsAt (fun g => ((), g.sampleChangePoint)) g := by
  have h := ChangePoint.repeatsAt_sampleNext (t := u) (g.maxSwitchPoints - g.inversions)
    g.scheduleLength g.steps g.switchChoices
  refine ⟨fun w => ⟨w.1, h.within w.2⟩, fun w => ?_, fun w => ⟨w.1, h.sound w.2.1, w.2.2⟩⟩
  have same := h.repeats w.2
  simp only [sampleChangePoint, recorder, same]

/-- An operation is taken in as one of the chains, whose priorities are drawn. -/
def offer (op : Operation) (g : PctcpSchedule) : Option ChainFault × PctcpSchedule :=
  let offered := g.chains.offer op.id op.clock g.priorityChoices
  (offered.1.2,
    { g with
      chains := offered.1.1
      pending := g.pending.insert op.id g.chains.ops.size
      priorityChoices := offered.2 })

lemma repeatsAt_offer (op : Operation) (g : PctcpSchedule) :
    (recorder t u kept).RepeatsAt (offer op) g := by
  have h := g.chains.repeatsAt_offer (t := t) op.id op.clock g.priorityChoices
  refine ⟨fun w => ⟨h.within w.1, w.2⟩, fun w => ?_, fun w => ⟨h.sound w.1, w.2⟩⟩
  have same := h.repeats w.1
  simp only [offer, recorder, same]

/-- The others are taken in as well, unless there was a fault. -/
def discoverRest (ops : List Operation) (fault : Option ChainFault) (g : PctcpSchedule) :
    Option ChainFault × PctcpSchedule :=
  match fault with
  | none => (g.discover ops).swap
  | some fault => (some fault, g)

lemma discover_cons {g : PctcpSchedule} {op : Operation} (ops : List Operation)
    (fresh : g.pending.contains op.id = false) :
    (g.discover (op :: ops)).swap = discoverRest ops (offer op g).1 (offer op g).2 := by
  rw [discover, fresh]
  cases fault : (g.chains.offer op.id op.clock g.priorityChoices).1.2 <;>
    simp [offer, discoverRest, fault]

lemma repeatsAt_discover (ops : List Operation) (g : PctcpSchedule) :
    (recorder t u kept).RepeatsAt (fun g => (g.discover ops).swap) g := by
  induction ops generalizing g with
  | nil => exact .pure none
  | cons op ops ih =>
    cases known : g.pending.contains op.id with
    | true =>
      exact (ih g).congr (congrArg Prod.swap (if_pos known)) (congrArg Prod.swap (if_pos known))
    | false =>
      have rest : ∀ fault g, (recorder t u kept).RepeatsAt (discoverRest ops fault) g := by
        intro fault g
        cases fault with
        | none => exact ih g
        | some fault => exact .pure _
      exact ((repeatsAt_offer op g).bind (rest _ _)).congr (discover_cons ops known)
        (discover_cons (g := (recorder t u kept).onTape g) ops known)

lemma change_none {g : PctcpSchedule} (none : g.select? enabled = none)
    (several : (enabled.length == 1) = false) : g.change enabled = g := by
  simp only [change, several, none, Bool.false_eq_true, if_false, ite_self]

lemma change_some {g : PctcpSchedule} (due : (g.nextChangePoint != some g.steps) = false)
    (several : (enabled.length == 1) = false) {c : ChainId} {n : Nat}
    (first : g.select? enabled = some (c, n)) :
    g.change enabled =
      sampleChangePoint { g with chains := g.chains.demote c, inversions := g.inversions + 1 } := by
  simp only [change, due, several, first, Bool.false_eq_true, if_false]

lemma repeatsAt_change (enabled : List Operation) (g : PctcpSchedule) :
    (recorder t u kept).RepeatsAt (fun g => ((), g.change enabled)) g := by
  let taped := (recorder t u kept).onTape g
  by_cases early : (g.nextChangePoint != some g.steps) = true
  · exact (Recorder.RepeatsAt.pure ()).congr (congrArg _ (if_pos early)) (congrArg _ (if_pos early))
  by_cases single : (enabled.length == 1) = true
  · refine Recorder.RepeatsAt.congr
      (f := fun g => ((), { g with nextChangePoint := some (g.steps + 1) }))
      ⟨fun w => w, fun _ => rfl, fun w => w⟩ ?_ ?_
    · exact congrArg _ ((if_neg early).trans (if_pos single))
    · exact congrArg _ ((if_neg early).trans (if_pos single))
  rw [Bool.not_eq_true] at early single
  cases first : g.select? enabled with
  | none =>
    exact (Recorder.RepeatsAt.pure ()).congr (congrArg _ (change_none first single))
      (congrArg _ (change_none (g := taped) first single))
  | some found =>
    obtain ⟨c, n⟩ := found
    have demote : (recorder t u kept).RepeatsAt (fun g =>
        ((), { g with chains := g.chains.demote c, inversions := g.inversions + 1 })) g :=
      ⟨fun w => w, fun _ => rfl, fun w => w⟩
    exact (demote.bind (g := fun _ g => ((), g.sampleChangePoint))
      (repeatsAt_sampleChangePoint _)).congr (congrArg _ (change_some early single first))
      (congrArg _ (change_some (g := taped) early single first))

lemma pick_of_choose? {g : PctcpSchedule} {op : Nat} {id : OperationId}
    (first : g.choose? enabled = some (op, id)) :
    g.pick enabled = (.ok id, { g with
      scheduled := g.scheduled.insert op
      pending := g.pending.erase id
      steps := g.steps + 1 }) := by
  rw [pick, first]

lemma pick_of_none {g : PctcpSchedule} (none : g.choose? enabled = none) :
    g.pick enabled = (.error (faultError "no enabled operation in any chain"), g) := by
  rw [pick, none]

lemma repeatsAt_pick (enabled : List Operation) (g : PctcpSchedule) :
    (recorder t u kept).RepeatsAt (fun g => g.pick enabled) g := by
  let taped := (recorder t u kept).onTape g
  cases first : g.choose? enabled with
  | none =>
    exact (Recorder.RepeatsAt.pure _).congr (pick_of_none first) (pick_of_none (g := taped) first)
  | some found =>
    have run : (recorder t u kept).RepeatsAt (fun g =>
        ((.ok found.2 : Except StrategyError OperationId), { g with
          scheduled := g.scheduled.insert found.1
          pending := g.pending.erase found.2
          steps := g.steps + 1 })) g :=
      ⟨fun w => w, fun _ => rfl, fun w => w⟩
    exact run.congr (pick_of_choose? first) (pick_of_choose? (g := taped) first)

/-- The decision after the operations have been taken in. -/
def afterDiscovery (enabled : List Operation) (fault : Option ChainFault) (g : PctcpSchedule) :
    Except StrategyError OperationId × PctcpSchedule :=
  match fault with
  | none => (g.change enabled).pick enabled
  | some fault => (.error (faultError fault.message), g)

/-- A decision draws nothing but new priorities and change points. -/
lemma repeatsAt_next (enabled : List Operation) (g : PctcpSchedule) :
    (recorder t u kept).RepeatsAt (fun g => g.next enabled) g := by
  have go : ∀ fault g, (recorder t u kept).RepeatsAt (afterDiscovery enabled fault) g := by
    intro fault g
    cases fault with
    | none =>
      exact (repeatsAt_change enabled g).bind (g := fun _ g => g.pick enabled)
        (repeatsAt_pick enabled _)
    | some fault => exact .pure _
  have run : ∀ g : PctcpSchedule,
      g.next enabled =
        afterDiscovery enabled (g.discover enabled).swap.1 (g.discover enabled).swap.2 := by
    intro g
    rw [next]
    rcases g.discover enabled with ⟨g, _ | fault⟩ <;> rfl
  exact ((repeatsAt_discover enabled g).bind (go _ _)).congr (run _) (run _)

lemma sound_startIteration (g : PctcpSchedule) (scheduleLength : Nat) :
    (recorder t u (g.startIteration scheduleLength).settings).Sound
      (g.startIteration scheduleLength) :=
  (repeatsAt_sampleChangePoint _).sound ⟨Nat.zero_le _, Nat.zero_le _, rfl⟩

/-- A schedule with the settings of another starts like it does, if it gets the choices that the other
has recorded. -/
lemma withStreams_onTape {g start : PctcpSchedule} {scheduleLength : Nat}
    (within : (recorder t u kept).Within (start.startIteration scheduleLength))
    (same : g.settings = (start.startIteration scheduleLength).settings) :
    g.withStreams ⟨t.values, 0, t.rng⟩ ⟨u.values, 0, u.rng⟩ =
      (recorder t u kept).onTape (start.startIteration scheduleLength) := by
  obtain ⟨kind, length⟩ := Prod.mk.inj same
  have points : g.maxSwitchPoints = start.maxSwitchPoints := ScheduleKind.pctcp.inj kind
  have length : g.scheduleLength = max start.scheduleLength scheduleLength := length
  refine Eq.trans ?_ (congrArg Prod.snd ((repeatsAt_sampleChangePoint _).repeats within))
  rw [withStreams, ofStreams, startIteration, points, length, max_self]
  rfl

/-- A schedule that already reckons with runs as long starts as it is made. -/
lemma startIteration_eq_withStreams {g : PctcpSchedule} {scheduleLength : Nat}
    (le : scheduleLength ≤ g.scheduleLength) :
    g.startIteration scheduleLength =
      g.withStreams g.priorityChoices.rewind g.switchChoices.rewind := by
  rw [withStreams, ofStreams, startIteration, startIteration, max_eq_left le, max_self]
  rfl

/-- On tape, a schedule starts anew as it has started, unless there have been longer runs since. -/
lemma startIteration_onTape {start : PctcpSchedule} {scheduleLength longest : Nat}
    (within : (recorder t u kept).Within (start.startIteration scheduleLength))
    (le : longest ≤ scheduleLength) :
    ((recorder t u kept).onTape (start.startIteration scheduleLength)).startIteration longest =
      (recorder t u kept).onTape (start.startIteration scheduleLength) := by
  have le : longest ≤ (start.startIteration scheduleLength).scheduleLength :=
    le.trans (Nat.le_max_right _ _)
  exact (startIteration_eq_withStreams (g := (recorder t u kept).onTape _) le).trans
    (withStreams_onTape within rfl)

end PctcpSchedule

end Interleaving
