import Interleaving.Proofs.Pattern.Thompson
import Interleaving.Proofs.Pattern.Written

/-!
# Association to the left

`Pattern.leftward` turns nests of alternatives and nests of sequences so that each takes its parts
one after another from the left, and leaves everything else as it is. Terms and words stay the
same.
-/

namespace Interleaving.Pattern

variable {l r p q : Pattern} {f : EventTerm → EventTerm}

/-- Takes the right alternatives one by one after those on the left. -/
def addAlt (l : Pattern) : Pattern → Pattern
  | alt p q => alt (addAlt l p) q
  | p => alt l p

/-- Takes the parts of the sequence on the right one by one after those on the left. -/
def addSeq (l : Pattern) : Pattern → Pattern
  | seq p q => seq (addSeq l p) q
  | p => seq l p

def leftward : Pattern → Pattern
  | empty => empty
  | event t => event t
  | alt l r => addAlt l.leftward r.leftward
  | seq l r => addSeq l.leftward r.leftward
  | star p => star p.leftward
  | maybe p => maybe p.leftward

/-- Nowhere do alternatives stand on the right of alternatives, or a sequence of a sequence. -/
def LeftNested : Pattern → Prop
  | empty | event _ => True
  | alt l r => l.LeftNested ∧ r.LeftNested ∧ r.rank ≠ 0
  | seq l r => l.LeftNested ∧ r.LeftNested ∧ r.rank ≠ 1
  | star p | maybe p => p.LeftNested

lemma addAlt_eq (h : r.rank ≠ 0) : addAlt l r = alt l r := by
  cases r with
  | alt => exact absurd rfl h
  | _ => rfl

lemma addSeq_eq (h : r.rank ≠ 1) : addSeq l r = seq l r := by
  cases r with
  | seq => exact absurd rfl h
  | _ => rfl

lemma addAlt_assoc : addAlt (addAlt p q) r = addAlt p (addAlt q r) := by
  induction r with
  | alt r s ih _ => rw [addAlt, addAlt, addAlt, ih]
  | _ => rfl

lemma addSeq_assoc : addSeq (addSeq p q) r = addSeq p (addSeq q r) := by
  induction r with
  | seq r s ih _ => rw [addSeq, addSeq, addSeq, ih]
  | _ => rfl

lemma rank_addAlt : (addAlt l r).rank = 0 := by
  cases r <;> rfl

lemma rank_addSeq : (addSeq l r).rank = 1 := by
  cases r <;> rfl

lemma rank_leftward : p.leftward.rank = p.rank := by
  cases p with
  | alt l r => exact rank_addAlt
  | seq l r => exact rank_addSeq
  | _ => rfl

lemma leftward_addAlt : (addAlt l r).leftward = addAlt l.leftward r.leftward := by
  induction r with
  | alt p q ih _ => rw [addAlt, leftward, leftward, ih, addAlt_assoc]
  | _ => rfl

lemma leftward_addSeq : (addSeq l r).leftward = addSeq l.leftward r.leftward := by
  induction r with
  | seq p q ih _ => rw [addSeq, leftward, leftward, ih, addSeq_assoc]
  | _ => rfl

lemma leftward_leftward : p.leftward.leftward = p.leftward := by
  induction p with
  | empty => rfl
  | event t => rfl
  | alt l r ihl ihr => rw [leftward, leftward_addAlt, ihl, ihr]
  | seq l r ihl ihr => rw [leftward, leftward_addSeq, ihl, ihr]
  | star p ih => rw [leftward, leftward, ih]
  | maybe p ih => rw [leftward, leftward, ih]

lemma LeftNested.addAlt (hl : l.LeftNested) (hr : r.LeftNested) : (addAlt l r).LeftNested := by
  induction r with
  | alt p q ih _ => exact ⟨ih hr.1, hr.2⟩
  | _ => exact ⟨hl, hr, nofun⟩

lemma LeftNested.addSeq (hl : l.LeftNested) (hr : r.LeftNested) : (addSeq l r).LeftNested := by
  induction r with
  | seq p q ih _ => exact ⟨ih hr.1, hr.2⟩
  | _ => exact ⟨hl, hr, nofun⟩

lemma leftNested_leftward : p.leftward.LeftNested := by
  induction p with
  | empty => trivial
  | event t => trivial
  | alt l r ihl ihr => exact ihl.addAlt ihr
  | seq l r ihl ihr => exact ihl.addSeq ihr
  | star p ih => exact ih
  | maybe p ih => exact ih

lemma LeftNested.leftward_eq (h : p.LeftNested) : p.leftward = p := by
  induction p with
  | empty => rfl
  | event t => rfl
  | alt l r ihl ihr => rw [leftward, ihl h.1, ihr h.2.1, addAlt_eq h.2.2]
  | seq l r ihl ihr => rw [leftward, ihl h.1, ihr h.2.1, addSeq_eq h.2.2]
  | star p ih => rw [leftward, ih h]
  | maybe p ih => rw [leftward, ih h]

lemma leftward_eq_self_iff : p.leftward = p ↔ p.LeftNested := by
  constructor
  · intro h
    rw [← h]
    exact leftNested_leftward
  · exact LeftNested.leftward_eq

lemma mapTerms_addAlt : (addAlt l r).mapTerms f = addAlt (l.mapTerms f) (r.mapTerms f) := by
  induction r with
  | alt p q ih _ => rw [addAlt, mapTerms, mapTerms, addAlt, ih]
  | _ => rfl

lemma mapTerms_addSeq : (addSeq l r).mapTerms f = addSeq (l.mapTerms f) (r.mapTerms f) := by
  induction r with
  | seq p q ih _ => rw [addSeq, mapTerms, mapTerms, addSeq, ih]
  | _ => rfl

lemma mapTerms_leftward : p.leftward.mapTerms f = (p.mapTerms f).leftward := by
  induction p with
  | empty => rfl
  | event t => rfl
  | alt l r ihl ihr => rw [leftward, mapTerms_addAlt, ihl, ihr, mapTerms, leftward]
  | seq l r ihl ihr => rw [leftward, mapTerms_addSeq, ihl, ihr, mapTerms, leftward]
  | star p ih => rw [leftward, mapTerms, ih, mapTerms, leftward]
  | maybe p ih => rw [leftward, mapTerms, ih, mapTerms, leftward]

section Words
open Computability

variable {α : Type} {suits : EventTerm → α → Prop}

lemma language_addAlt :
    (addAlt l r).language suits = l.language suits + r.language suits := by
  induction r with
  | alt p q ih _ => rw [addAlt, language, ih, language, add_assoc]
  | _ => rfl

lemma language_addSeq :
    (addSeq l r).language suits = l.language suits * r.language suits := by
  induction r with
  | seq p q ih _ => rw [addSeq, language, ih, language, mul_assoc]
  | _ => rfl

lemma language_leftward : p.leftward.language suits = p.language suits := by
  induction p with
  | empty => rfl
  | event t => rfl
  | alt l r ihl ihr => rw [leftward, language_addAlt, ihl, ihr, language]
  | seq l r ihl ihr => rw [leftward, language_addSeq, ihl, ihr, language]
  | star p ih => rw [leftward, language, ih, language]
  | maybe p ih => rw [leftward, language, ih, language]

end Words

end Interleaving.Pattern
