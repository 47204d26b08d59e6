import Mathlib
import Interleaving.Choice.Stream
import Interleaving.Proofs.Choice.Geometric

/-!
# Mutations are local

A mutation draws its bursts one after the other, each with its length and its place, and skips as many
words as it puts into the stream. Where no burst comes to lie, the choices stay as they were
(`ChoiceStream.mutate_outside_bursts`).
-/

namespace Interleaving

namespace Rng

variable {n zone tries : Nat} {r : Rng}

/-- A source after so many words. -/
def skip (n : Nat) (r : Rng) : Rng := (fun r : Rng => r.nextUInt64.2)^[n] r

lemma drawBelow_lt (pos : 0 < n) : (drawBelow n zone tries r).1 < n := by
  induction tries generalizing r with
  | zero => exact pos
  | succ tries ih =>
    simp only [drawBelow]
    split
    · apply Nat.div_lt_of_lt_mul
      exact Nat.mul_lt_mul_of_pos_right r.nextUInt64.1.toNat_lt pos
    · exact ih

lemma nextBelow_lt (pos : 0 < n) : (r.nextBelow n).1 < n := by
  unfold nextBelow
  exact drawBelow_lt pos

end Rng

/-- A stretch of choices to be overwritten: where it begins, and how long it is unless it is cut off. -/
structure Burst where
  offset : Nat
  size : Nat

namespace Burst

/-- Where a burst ends in a stream of the given length. -/
def stop (b : Burst) (length : Nat) : Nat := min (b.offset + b.size) length

/-- How many choices of the stream a burst overwrites. -/
def extent (b : Burst) (length : Nat) : Nat := b.stop length - b.offset

/-- A choice of the stream lies in the burst. -/
def Covers (b : Burst) (length i : Nat) : Prop := b.offset ≤ i ∧ i < b.stop length

instance (b : Burst) (length i : Nat) : Decidable (b.Covers length i) := instDecidableAnd

lemma card_covers_le (b : Burst) (length : Nat) :
    {i ∈ Finset.range length | b.Covers length i}.card ≤ b.extent length := by
  calc {i ∈ Finset.range length | b.Covers length i}.card
    _ ≤ (Finset.Ico b.offset (b.stop length)).card := by
      apply Finset.card_le_card
      intro i hi
      exact Finset.mem_Ico.mpr (Finset.mem_filter.mp hi).2
    _ = b.extent length := Nat.card_Ico ..

/-- Bursts may overlap, so they cover at most as many choices as they overwrite. -/
lemma card_covered_le (bursts : List Burst) (length : Nat) :
    {i ∈ Finset.range length | ∃ b ∈ bursts, b.Covers length i}.card ≤
      (bursts.map (·.extent length)).sum := by
  induction bursts with
  | nil => simp
  | cons b bursts ih =>
    simp only [List.mem_cons, exists_eq_or_imp, Finset.filter_or, List.map_cons, List.sum_cons]
    exact (Finset.card_union_le _ _).trans (Nat.add_le_add (b.card_covers_le length) ih)

end Burst

namespace ChoiceStream

variable {values : Array UInt64} {rng : Rng} {i j n : Nat} {meanSize : Float}

section Drawing

/-- Draws a burst for a stream of the given length: first its size and then its place. -/
def drawBurst (meanSize : Float) (length : Nat) (rng : Rng) : Burst × Rng :=
  let size := Geometric.sampleMean meanSize rng.nextDouble.1
  let place := rng.nextDouble.2.nextBelow length
  (⟨place.1, size⟩, place.2)

/-- So many bursts, with the words for the overwritten choices drawn in between. -/
def drawBursts (meanSize : Float) (length : Nat) : Nat → Rng → List Burst
  | 0, _ => []
  | n + 1, rng =>
    let drawn := drawBurst meanSize length rng
    drawn.1 :: drawBursts meanSize length n (drawn.2.skip (drawn.1.extent length))

/-- The bursts that a mutation draws, after the seed of the copy and the number of the bursts. -/
def burstsOf (s : ChoiceStream) (means : MutationMeans) (rng : Rng) : List Burst :=
  if s.values.isEmpty then []
  else
    let number := rng.nextUInt64.2.nextDouble
    drawBursts means.size s.values.size (Geometric.sampleMean means.count number.1) number.2

lemma bounds_of_mem_drawBursts {length : Nat} (pos : 0 < length) :
    ∀ b ∈ drawBursts meanSize length n rng, 1 ≤ b.size ∧ b.offset < length := by
  induction n generalizing rng with
  | zero => exact nofun
  | succ n ih =>
    rw [drawBursts]
    exact List.forall_mem_cons.mpr
      ⟨⟨Geometric.one_le_sampleMean _ _, Rng.nextBelow_lt pos⟩, ih⟩

end Drawing

section Overwriting

lemma size_overwrite : (overwrite values rng i n).1.size = values.size := by
  induction n generalizing values rng i with
  | zero => rfl
  | succ n ih =>
    rw [overwrite, ih]
    exact Array.size_setIfInBounds

lemma snd_overwrite : (overwrite values rng i n).2 = rng.skip n := by
  induction n generalizing values rng i with
  | zero => rfl
  | succ n ih =>
    rw [overwrite, ih]
    rfl

lemma getElem?_overwrite (outside : j < i ∨ i + n ≤ j) :
    (overwrite values rng i n).1[j]? = values[j]? := by
  induction n generalizing values rng i with
  | zero => rfl
  | succ n ih =>
    rw [overwrite, ih (by omega)]
    exact Array.getElem?_setIfInBounds_ne (by omega)

/-- A burst is overwritten where it has been drawn. -/
lemma overwriteBurst_eq : overwriteBurst meanSize values rng =
    overwrite values (drawBurst meanSize values.size rng).2
      (drawBurst meanSize values.size rng).1.offset
      ((drawBurst meanSize values.size rng).1.extent values.size) := by
  unfold overwriteBurst drawBurst
  cases rng.nextDouble with
  | mk u rng =>
    dsimp only
    cases rng.nextBelow values.size with
    | mk offset rng => rfl

lemma size_overwriteBursts : (overwriteBursts meanSize n values rng).1.size = values.size := by
  induction n generalizing values rng with
  | zero => rfl
  | succ n ih =>
    rw [overwriteBursts, ih, overwriteBurst_eq, size_overwrite]

lemma getElem?_overwriteBursts
    (outside : ∀ b ∈ drawBursts meanSize values.size n rng, ¬ b.Covers values.size i) :
    (overwriteBursts meanSize n values rng).1[i]? = values[i]? := by
  induction n generalizing values rng with
  | zero => rfl
  | succ n ih =>
    rw [drawBursts, List.forall_mem_cons] at outside
    obtain ⟨first, rest⟩ := outside
    rw [overwriteBursts, overwriteBurst_eq]
    simp only
    rw [ih, getElem?_overwrite]
    · rw [Burst.Covers] at first
      rw [Burst.extent]
      omega
    · rw [size_overwrite, snd_overwrite]
      exact rest

end Overwriting

/-- What is mutated is a copy, and the bursts are overwritten in it. -/
lemma exists_mutate_eq (s : ChoiceStream) (means : MutationMeans) (rng : Rng) :
    ∃ n rng' source, s.burstsOf means rng = drawBursts means.size s.values.size n rng' ∧
      (s.mutate means rng).1 = ⟨(overwriteBursts means.size n s.values rng').1, 0, source⟩ := by
  by_cases none : s.values.isEmpty = true
  · refine ⟨0, rng, .ofSeed rng.nextUInt64.1, if_pos none, ?_⟩
    rw [mutate]
    exact congrArg Prod.fst (if_pos none)
  · refine ⟨_, _, .ofSeed rng.nextUInt64.1, if_neg none, ?_⟩
    rw [mutate]
    exact congrArg Prod.fst (if_neg none)

/-- The bursts of a mutation lie where there is something to overwrite. -/
lemma bounds_of_mem_burstsOf {s : ChoiceStream} {means : MutationMeans} :
    ∀ b ∈ s.burstsOf means rng, 1 ≤ b.size ∧ b.offset < s.values.size := by
  unfold burstsOf
  split
  · exact nofun
  · next some =>
    rw [Array.isEmpty_iff_size_eq_zero] at some
    exact bounds_of_mem_drawBursts (Nat.pos_of_ne_zero some)

/-- A mutation gives a rewound stream of the same length. Its bursts, as they are drawn, have sizes of at
least one and begin in the stream; a choice in none of them is kept, so that no more choices change than
the bursts, cut off at the end of the stream, overwrite; and a stream without choices gets none. -/
theorem mutate_outside_bursts (s : ChoiceStream) (means : MutationMeans) (rng : Rng) :
    let mutated := (s.mutate means rng).1
    let length := s.values.size
    let bursts := s.burstsOf means rng
    mutated.cursor = 0 ∧ mutated.values.size = length ∧
    (∀ b ∈ bursts, 1 ≤ b.size ∧ b.offset < length) ∧
    (∀ i, (∀ b ∈ bursts, ¬ b.Covers length i) → mutated.values[i]? = s.values[i]?) ∧
    {i ∈ Finset.range length | mutated.values[i]? ≠ s.values[i]?}.card ≤
      (bursts.map (·.extent length)).sum ∧
    (s.values = #[] → mutated.values = #[] ∧ bursts = []) := by
  intro mutated length bursts
  obtain ⟨n, rng', source, drawn, made⟩ := exists_mutate_eq s means rng
  have made : mutated = ⟨(overwriteBursts means.size n s.values rng').1, 0, source⟩ := made
  have drawn : bursts = drawBursts means.size length n rng' := drawn
  have size : mutated.values.size = length := by
    rw [made, size_overwriteBursts]
  have bounds : ∀ b ∈ bursts, 1 ≤ b.size ∧ b.offset < length := bounds_of_mem_burstsOf
  have kept : ∀ i, (∀ b ∈ bursts, ¬ b.Covers length i) →
      mutated.values[i]? = s.values[i]? := by
    intro i outside
    rw [drawn] at outside
    rw [made]
    exact getElem?_overwriteBursts outside
  refine ⟨by rw [made], size, bounds, kept, ?_, fun none => ⟨?_, ?_⟩⟩
  · refine le_trans (Finset.card_le_card fun i hi => ?_) (Burst.card_covered_le bursts length)
    obtain ⟨within, changed⟩ := Finset.mem_filter.mp hi
    refine Finset.mem_filter.mpr ⟨within, ?_⟩
    by_contra outside
    exact changed (kept i fun b hb covers => outside ⟨b, hb, covers⟩)
  · apply Array.eq_empty_of_size_eq_zero
    rw [size]
    exact congrArg Array.size none
  · have nowhere : length = 0 := congrArg Array.size none
    apply List.eq_nil_iff_forall_not_mem.mpr
    intro b hb
    have begins := (bounds b hb).2
    omega

end ChoiceStream

end Interleaving
