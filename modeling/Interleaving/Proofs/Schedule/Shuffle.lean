import Mathlib
import Interleaving.Proofs.Chain.Partition
import Interleaving.Proofs.Choice.Tape
import Interleaving.Schedule.ChangePoint

/-!
# Shuffled steps

The steps of a run are shuffled by exchanging the entries at `i`, `i - 1`, …, `1` with entries at or
before them. After the exchange for `i` the entry there is final, and it is whichever of those up to `i`
was drawn. So each order of the steps asks for one position at each exchange
(`ChangePoint.existsUnique_exchangeDown`), and the shuffle is fair: the sequences of draws and the orders
of the steps correspond one to one (`ChangePoint.bijOn_exchangeDown`).
-/

namespace Interleaving

lemma SortedSet.toList_ofList_perm {κ : Type} [Ord κ] [Std.TransOrd κ] [Std.LawfulEqOrd κ]
    {ks : List κ} (nodup : ks.Nodup) : (ofList ks).toList.Perm ks :=
  (List.perm_ext_iff_of_nodup (nodup_toList _) nodup).mpr fun _ => mem_ofList

namespace ChangePoint

variable {i j : Nat} {draws steps order : List Nat}

/-- The sequences of positions that a shuffle can draw: for `i`, `i - 1`, …, `1` in turn, each position is
at or before the entry that it is drawn for. -/
inductive Drawable : Nat → List Nat → Prop where
  | done :
    Drawable 0 []
  | draw {i j : Nat} {draws : List Nat} :
    j ≤ i + 1 →
    Drawable i draws →
    Drawable (i + 1) (j :: draws)

/-- The exchanges of a shuffle with the positions of a list in place of those that a stream draws. -/
def exchangeDown : Nat → List Nat → List Nat → List Nat
  | i + 1, j :: draws, steps => exchangeDown i draws (steps.swap (i + 1) j)
  | _, _, steps => steps

/-- How many positions there are to draw from for `i`, `i - 1`, …, `1`. -/
def choicesDown : Nat → List Nat
  | 0 => []
  | i + 1 => (i + 2) :: choicesDown i

/-- The positions that a shuffle draws from a stream, and the stream afterwards. -/
def drawDown (i : Nat) (choices : ChoiceStream) : List Nat × ChoiceStream :=
  Recorder.inTurn ChoiceStream.nextIndex (choicesDown i) choices

section Streams

lemma drawable_drawDown (i : Nat) (choices : ChoiceStream) : Drawable i (drawDown i choices).1 := by
  induction i generalizing choices with
  | zero => exact .done
  | succ i ih =>
    have lt := ChoiceStream.nextIndex_lt (Nat.succ_pos (i + 1)) choices
    exact .draw (Nat.le_of_lt_succ lt) (ih _)

/-- A shuffle makes the exchanges that its draws ask for. -/
lemma shuffleDown_eq (i : Nat) (steps : Array Nat) (choices : ChoiceStream) :
    shuffleDown i steps choices =
      ((exchangeDown i (drawDown i choices).1 steps.toList).toArray, (drawDown i choices).2) := by
  induction i generalizing steps choices with
  | zero => rfl
  | succ i ih =>
    show shuffleDown i (steps.swapIfInBounds (i + 1) (choices.nextIndex (i + 2)).1)
      (choices.nextIndex (i + 2)).2 = _
    rw [ih, Array.toList_swapIfInBounds]
    rfl

/-- A stream that holds a sequence of draws from its place on draws this sequence, as long as the
positions fit into a word. -/
lemma drawDown_of_drop {choices : ChoiceStream} (drawable : Drawable i draws) (fits : i < 2 ^ 64)
    (holds : choices.values.toList.drop choices.cursor = draws.map UInt64.ofNat) :
    (drawDown i choices).1 = draws := by
  induction drawable generalizing choices with
  | done => rfl
  | @draw i j draws le _ ih =>
    have word : choices.values[choices.cursor]? = some (UInt64.ofNat j) := by
      rw [← Array.getElem?_toList, ← Nat.add_zero choices.cursor, ← List.getElem?_drop, holds]
      rfl
    have rest : choices.values.toList.drop (choices.cursor + 1) = draws.map UInt64.ofNat := by
      rw [← List.tail_drop, holds]
      rfl
    have next : choices.nextIndex (i + 2) = (j, { choices with cursor := choices.cursor + 1 }) := by
      have small : j % 2 ^ 64 = j := Nat.mod_eq_of_lt (le.trans_lt fits)
      have position : j % (i + 2) = j := Nat.mod_eq_of_lt (Nat.lt_succ_of_le le)
      simp only [ChoiceStream.nextIndex, ChoiceStream.nextUInt64, word, UInt64.toNat_ofNat', small,
        position, if_neg (Nat.succ_ne_zero (i + 1))]
    have tail : (drawDown i { choices with cursor := choices.cursor + 1 }).1 = draws :=
      ih (i.lt_succ_self.trans fits) rest
    show (choices.nextIndex (i + 2)).1 :: (drawDown i (choices.nextIndex (i + 2)).2).1 = j :: draws
    rw [next, tail]

end Streams

section Orders

lemma perm_exchangeDown (i : Nat) (draws steps : List Nat) :
    (exchangeDown i draws steps).Perm steps := by
  induction i generalizing draws steps with
  | zero => cases draws <;> exact .refl _
  | succ i ih =>
    cases draws with
    | nil => exact .refl _
    | cons j draws => exact (ih _ _).trans (List.swap_perm _ _ _)

/-- An exchange puts the entry that was drawn in its place and leaves those after it alone. -/
lemma drop_swap (le : j ≤ i) (lt : i < steps.length) :
    (steps.swap i j).drop i = steps[j] :: steps.drop (i + 1) := by
  have lt' : i < (steps.swap i j).length := by rwa [List.length_swap]
  rw [List.drop_eq_getElem_cons lt', List.getElem_swap_left_of_lt (le.trans_lt lt)]
  congr 1
  refine List.ext_getElem (by simp) fun k _ _ => ?_
  rw [List.getElem_drop, List.getElem_drop]
  exact List.getElem_swap_of_ne (by omega) (by omega) _

/-- The exchanges for `i` and less leave the entries after `i` alone. -/
lemma drop_exchangeDown (drawable : Drawable i draws) (lt : i ≤ steps.length - 1) :
    (exchangeDown i draws steps).drop (i + 1) = steps.drop (i + 1) := by
  induction drawable generalizing steps with
  | done => rfl
  | @draw i j draws earlier _ ih =>
    have rest : (exchangeDown i draws (steps.swap (i + 1) j)).drop (i + 1) =
        (steps.swap (i + 1) j).drop (i + 1) := ih (by rw [List.length_swap]; omega)
    rw [drop_swap earlier (by omega)] at rest
    rw [exchangeDown, ← List.tail_drop, rest, List.tail_cons]

/-- The entry that is drawn first is final. -/
lemma drop_exchangeDown_cons (le : j ≤ i + 1) (drawable : Drawable i draws)
    (lt : i + 1 < steps.length) :
    (exchangeDown (i + 1) (j :: draws) steps).drop (i + 1) = steps[j] :: steps.drop (i + 2) := by
  rw [exchangeDown, drop_exchangeDown drawable (by rw [List.length_swap]; omega), drop_swap le lt]

/-- An order that differs from another one in the first entry only is the same order. -/
lemma eq_of_perm_of_tail (perm : order.Perm steps) (same : order.drop 1 = steps.drop 1) :
    order = steps := by
  cases order with
  | nil => exact perm.nil_eq
  | cons a order =>
    cases steps with
    | nil => exact perm.eq_nil
    | cons b steps =>
      obtain rfl : order = steps := same
      have first : [a].Perm [b] := (List.perm_append_right_iff order).mp perm
      rw [List.singleton_perm_singleton.mp first]

/-- Just one sequence of draws brings the entries at `i` and before it into a given order. -/
lemma existsUnique_exchangeDown (nodup : steps.Nodup) (le : i ≤ steps.length - 1)
    (perm : order.Perm steps) (same : order.drop (i + 1) = steps.drop (i + 1)) :
    ∃! draws, Drawable i draws ∧ exchangeDown i draws steps = order := by
  induction i generalizing steps with
  | zero =>
    refine ⟨[], ⟨.done, (eq_of_perm_of_tail perm same).symm⟩, ?_⟩
    rintro _ ⟨⟨⟩, -⟩
    rfl
  | succ i ih =>
    have lt : i + 1 < steps.length := by omega
    have lt' : i + 1 < order.length := by rwa [perm.length_eq]
    -- The entry to be brought to `i + 1` is at or before it, since those after it are in place.
    obtain ⟨j, earlier, at_j⟩ : ∃ j, ∃ le : j ≤ i + 1, steps[j] = order[i + 1] := by
      have front : (order.take (i + 2)).Perm (steps.take (i + 2)) := by
        rw [← List.perm_append_right_iff (steps.drop (i + 2)), List.take_append_drop, ← same,
          List.take_append_drop]
        exact perm
      have mem : order[i + 1] ∈ order.take (i + 2) :=
        List.mem_take_iff_getElem.mpr ⟨i + 1, by omega, rfl⟩
      obtain ⟨j, lt, at_j⟩ := List.mem_take_iff_getElem.mp (front.mem_iff.mp mem)
      exact ⟨j, by omega, at_j⟩
    have swapped := List.swap_perm steps (i + 1) j
    have brought : order.drop (i + 1) = (steps.swap (i + 1) j).drop (i + 1) := by
      rw [drop_swap earlier lt, at_j, List.drop_eq_getElem_cons lt', same]
    obtain ⟨draws, ⟨drawable, exchanged⟩, unique⟩ := ih (swapped.nodup_iff.mpr nodup)
      (by rw [List.length_swap]; omega) (perm.trans swapped.symm) brought
    refine ⟨j :: draws, ⟨.draw earlier drawable, exchanged⟩, ?_⟩
    rintro _ ⟨drawable', exchanged'⟩
    cases drawable' with
    | @draw _ k others earlier' drawable' =>
      have at_k : steps[k] = order[i + 1] := by
        have final := drop_exchangeDown_cons earlier' drawable' lt
        rw [exchanged', List.drop_eq_getElem_cons lt'] at final
        exact (List.cons.inj final).1.symm
      obtain rfl : k = j := nodup.getElem_inj_iff.mp (at_k.trans at_j.symm)
      rw [unique others ⟨drawable', exchanged'⟩]

/-- The draws of a shuffle and the orders of its entries correspond one to one. -/
lemma bijOn_exchangeDown (nodup : steps.Nodup) :
    Set.BijOn (exchangeDown (steps.length - 1) · steps) {draws | Drawable (steps.length - 1) draws}
      {order | order.Perm steps} := by
  have unique {order : List Nat} (perm : order.Perm steps) :
      ∃! draws, Drawable (steps.length - 1) draws ∧
        exchangeDown (steps.length - 1) draws steps = order := by
    refine existsUnique_exchangeDown nodup le_rfl perm ?_
    rw [List.drop_eq_nil_of_le (by rw [perm.length_eq]; omega), List.drop_eq_nil_of_le (by omega)]
  refine ⟨fun draws _ => perm_exchangeDown _ draws steps, fun draws hd others ho same => ?_,
    fun order perm => (unique perm).exists⟩
  exact (unique (perm_exchangeDown _ others steps)).unique ⟨hd, same⟩ ⟨ho, rfl⟩

end Orders

section Samples

lemma perm_range_shuffleDown (length : Nat) (choices : ChoiceStream) :
    (shuffleDown (length - 1) (Array.range length) choices).1.toList.Perm (List.range length) := by
  rw [shuffleDown_eq, Array.toList_range]
  exact perm_exchangeDown _ _ _

/-- The changes drawn are the first entries of the shuffled list, each once. -/
lemma perm_sampleAll (count length : Nat) (choices : ChoiceStream) :
    (sampleAll count length choices).1.toList.Perm
      ((shuffleDown (length - 1) (Array.range length) choices).1.toList.take count) := by
  have nodup := (perm_range_shuffleDown length choices).nodup_iff.mpr List.nodup_range
  exact SortedSet.toList_ofList_perm (nodup.sublist (List.take_sublist count _))

/-- As many changes are drawn as are asked for, or one for each step if these are fewer. -/
lemma size_sampleAll (count length : Nat) (choices : ChoiceStream) :
    (sampleAll count length choices).1.size = min count length := by
  rw [SortedSet.size, (perm_sampleAll count length choices).length_eq, List.length_take,
    (perm_range_shuffleDown length choices).length_eq, List.length_range]

end Samples

/-- The shuffle of the steps of a run is fair. The sequences of positions that can be drawn for
`length - 1`, …, `1`, each at or before the entry that it is drawn for, are mapped one to one onto the
orders of the steps by the exchanges that they ask for. A stream draws such a sequence, and the shuffle
makes just its exchanges; each sequence is drawn from a stream that holds it. The changes come at the
first of the shuffled steps: as many as are asked for, or all if these are fewer, each of them a step of
the run. -/
theorem shuffle_fair (length : Nat) :
    Set.BijOn (exchangeDown (length - 1) · (List.range length))
      {draws | Drawable (length - 1) draws} {order | order.Perm (List.range length)} ∧
    (∀ choices : ChoiceStream, Drawable (length - 1) (drawDown (length - 1) choices).1 ∧
      shuffleDown (length - 1) (Array.range length) choices =
        ((exchangeDown (length - 1) (drawDown (length - 1) choices).1 (List.range length)).toArray,
          (drawDown (length - 1) choices).2)) ∧
    (length ≤ 2 ^ 64 → ∀ draws, Drawable (length - 1) draws → ∀ seed,
      (drawDown (length - 1) (.ofValues (draws.map UInt64.ofNat).toArray seed)).1 = draws) ∧
    ∀ (count : Nat) (choices : ChoiceStream),
      let points := (sampleAll count length choices).1
      let order := (shuffleDown (length - 1) (Array.range length) choices).1.toList
      points.size = min count length ∧
        ∀ point, (point ∈ points ↔ point ∈ order.take count) ∧ (point ∈ points → point < length) := by
  refine ⟨?_, fun choices => ⟨drawable_drawDown _ _, ?_⟩, fun fits draws drawable seed => ?_, ?_⟩
  · have fair := bijOn_exchangeDown (List.nodup_range (n := length))
    rwa [List.length_range] at fair
  · rw [shuffleDown_eq, Array.toList_range]
  · exact drawDown_of_drop drawable (by omega) rfl
  · intro count choices points order
    have taken {point : Nat} : point ∈ points ↔ point ∈ order.take count :=
      (perm_sampleAll count length choices).mem_iff
    refine ⟨size_sampleAll count length choices, fun point => ⟨taken, fun mem => ?_⟩⟩
    have mem := List.mem_of_mem_take (taken.mp mem)
    exact List.mem_range.mp ((perm_range_shuffleDown length choices).mem_iff.mp mem)

/-- The steps of a run of three come in the reverse order from one sequence of draws alone. -/
theorem shuffle_fair_of_three :
    3 ≤ 2 ^ 64 ∧ Drawable 2 [0, 1] ∧ (drawDown 2 (.ofValues #[0, 1] 7)).1 = [0, 1] ∧
      ∀ draws, Drawable 2 draws →
        (exchangeDown 2 draws (List.range 3) = [2, 1, 0] ↔ draws = [0, 1]) := by
  have fits : 3 ≤ 2 ^ 64 := by decide
  have drawable : Drawable 2 [0, 1] := .draw (Nat.zero_le _) (.draw le_rfl .done)
  have reversed : exchangeDown 2 [0, 1] (List.range 3) = [2, 1, 0] := rfl
  obtain ⟨⟨-, injective, -⟩, -, drawn, -⟩ := shuffle_fair 3
  refine ⟨fits, drawable, drawn fits [0, 1] drawable 7, fun draws h => ⟨fun e => ?_, ?_⟩⟩
  · exact injective h drawable (e.trans reversed.symm)
  · rintro rfl
    exact reversed

end ChangePoint

end Interleaving
