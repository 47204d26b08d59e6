import Mathlib.Tactic.Common
import Interleaving.Pattern.Tree
import Interleaving.Proofs.Pattern.Tokens

/-!
# The tokens of a written pattern

A written pattern is cut into the tokens of `Pattern.kinds`, if its names can be read as names: the
values of its conditions come back as what their quoted forms are read as
(`Pattern.lexemes_chars`).
-/

namespace Interleaving
open Token

variable {t : EventTerm} {p : Pattern} {f : EventTerm → EventTerm} {rest : List Char}

namespace EventTerm

/-- The term's names can be read as names. That for any kind cannot have conditions. -/
structure Named (t : EventTerm) : Prop where
  name : IsName t.name ∨ t = any
  fields : ∀ e ∈ t.constraints.toList, IsName e.1

/-- The term with the values that are read from its written form. -/
def reread (t : EventTerm) : EventTerm :=
  { t with constraints := t.constraints.mapValues fun _ v => Token.reread v }

def conditionKinds : List (String × String) → List TokenKind
  | [] => []
  | [(f, v)] => [.ident f, .colon, .str v]
  | (f, v) :: es => .ident f :: .colon :: .str v :: .comma :: conditionKinds es

def nameKind (t : EventTerm) : TokenKind := if t.isAny then .dot else .ident t.name

/-- The kinds of the tokens that a term is written with. -/
def kinds (t : EventTerm) : List TokenKind :=
  if t.constraints.isEmpty then [t.nameKind]
  else t.nameKind :: .openBrace :: (conditionKinds t.constraints.toList ++ [.closeBrace])

lemma reread_eq_self_iff :
    t.reread = t ↔ ∀ e ∈ t.constraints.toList, ∀ c ∈ e.2.toList, IsFaithful c := by
  have same : t.reread = t ↔ t.reread.constraints.toList = t.constraints.toList := by
    rw [SortedMap.toList_inj]
    exact ⟨congrArg constraints, fun h => congrArg (EventTerm.mk t.name) h⟩
  have entries : t.constraints.toList.map (fun e => (e.1, Token.reread e.2)) =
      t.constraints.toList.map id ↔ ∀ e ∈ t.constraints.toList, (e.1, Token.reread e.2) = e :=
    List.map_inj_left
  rw [List.map_id] at entries
  refine (same.trans entries).trans ?_
  simp only [← Token.reread_eq_self_iff, Prod.ext_iff, true_and]

lemma Named.reread (h : t.Named) : t.reread.Named where
  name := by
    obtain h | rfl := h.name
    · exact .inl h
    · exact .inr rfl
  fields e he := by
    obtain ⟨d, hd, rfl⟩ := List.mem_map.mp he
    exact h.fields d hd

lemma isAny_eq_false (h : IsName t.name) : t.isAny = false := by
  rw [isAny, beq_eq_false_iff_ne]
  intro e
  obtain ⟨c, cs, e', start, -⟩ := h
  rw [e] at e'
  obtain rfl : '.' = c := (List.cons.inj e').1
  exact absurd start (by decide)

lemma lexemes_name (h : t.Named) (ends : EndsName rest) :
    lexemes (t.name.toList ++ rest) = t.nameKind :: lexemes rest := by
  obtain h | rfl := h.name
  · rw [Token.lexemes_name h ends, nameKind, isAny_eq_false h]
    rfl
  · exact lexemes_sign rfl

lemma lexemes_condition {f v : String} (h : IsName f) :
    lexemes (f.toList ++ ':' :: (Text.quotedChars v.toList ++ rest)) =
      .ident f :: .colon :: .str (Token.reread v) :: lexemes rest := by
  rw [Token.lexemes_name h (endsName_cons (by decide)), lexemes_sign rfl, lexemes_quoted]
  rfl

lemma lexemes_conditionChars {es : List (String × String)} (h : ∀ e ∈ es, IsName e.1) :
    lexemes (conditionChars es ++ rest) =
      conditionKinds (es.map fun e => (e.1, Token.reread e.2)) ++ lexemes rest := by
  fun_induction conditionChars es with
  | case1 => rfl
  | case2 f v =>
    rw [List.append_assoc, List.cons_append, lexemes_condition (h _ List.mem_cons_self)]
    rfl
  | case3 f v es more ih =>
    have later := ih fun e he => h e (List.mem_cons_of_mem _ he)
    obtain ⟨e, es, rfl⟩ := List.exists_cons_of_ne_nil more
    simp only [List.append_assoc, List.cons_append]
    rw [lexemes_condition (h _ List.mem_cons_self), lexemes_sign rfl, lexemes_blank (by decide),
      later]
    rfl

lemma lexemes_chars (h : t.Named) (ends : EndsName rest) :
    lexemes (t.chars ++ rest) = t.reread.kinds ++ lexemes rest := by
  have bare : t.reread.constraints.isEmpty = t.constraints.isEmpty := List.isEmpty_map
  rw [chars, kinds, bare]
  split
  · exact lexemes_name h ends
  · simp only [List.append_assoc, List.cons_append, List.nil_append]
    rw [lexemes_name h (endsName_cons (by decide)), lexemes_sign rfl,
      lexemes_conditionChars h.fields, lexemes_sign rfl]
    rfl

end EventTerm

namespace Pattern

def mapTerms (f : EventTerm → EventTerm) : Pattern → Pattern
  | empty => empty
  | event t => event (f t)
  | alt l r => alt (l.mapTerms f) (r.mapTerms f)
  | seq l r => seq (l.mapTerms f) (r.mapTerms f)
  | star p => star (p.mapTerms f)
  | maybe p => maybe (p.mapTerms f)

lemma terms_mapTerms : (p.mapTerms f).terms = p.terms.map f := by
  induction p with
  | empty => rfl
  | event t => rfl
  | alt l r ihl ihr => rw [mapTerms, terms, ihl, ihr, terms, List.map_append]
  | seq l r ihl ihr => rw [mapTerms, terms, ihl, ihr, terms, List.map_append]
  | star p ih => rw [mapTerms, terms, ih, terms]
  | maybe p ih => rw [mapTerms, terms, ih, terms]

lemma rank_mapTerms : (p.mapTerms f).rank = p.rank := by
  cases p <;> rfl

lemma mapTerms_eq_self_iff : p.mapTerms f = p ↔ ∀ t ∈ p.terms, f t = t := by
  induction p with
  | empty => simp [mapTerms, terms]
  | event t => simp [mapTerms, terms]
  | alt l r ihl ihr => simp [mapTerms, terms, ihl, ihr, or_imp, forall_and]
  | seq l r ihl ihr => simp [mapTerms, terms, ihl, ihr, or_imp, forall_and]
  | star p ih => simp [mapTerms, terms, ih]
  | maybe p ih => simp [mapTerms, terms, ih]

def enclosed (min : Nat) (p : Pattern) (ks : List TokenKind) : List TokenKind :=
  if p.rank < min then .openParen :: (ks ++ [.closeParen]) else ks

/-- The kinds of the tokens that a pattern is written with. -/
def kinds : Pattern → List TokenKind
  | empty => [.openParen, .closeParen]
  | event t => t.kinds
  | alt l r => l.kinds ++ .bar :: r.kinds
  | seq l r => enclosed 1 l l.kinds ++ .comma :: enclosed 1 r r.kinds
  | star p => enclosed 2 p p.kinds ++ [.star]
  | maybe p => enclosed 2 p p.kinds ++ [.question]

def Named (p : Pattern) : Prop := ∀ t ∈ p.terms, t.Named

/-- The pattern with the values that are read from its written form. -/
def reread (p : Pattern) : Pattern := p.mapTerms .reread

/-- Every character of the values in conditions is faithful. -/
def Faithful (p : Pattern) : Prop :=
  ∀ t ∈ p.terms, ∀ e ∈ t.constraints.toList, ∀ c ∈ e.2.toList, IsFaithful c

lemma reread_eq_self_iff : p.reread = p ↔ p.Faithful := by
  rw [reread, mapTerms_eq_self_iff]
  simp only [EventTerm.reread_eq_self_iff, Faithful]

/-- The depth of a part with groups of depth `n`, when it stands where `grouped` writes it. -/
def nestingWithin (min : Nat) (p : Pattern) (n : Nat) : Nat := if p.rank < min then n + 1 else n

/-- How deep the written groups nest. -/
def nesting : Pattern → Nat
  | empty | event _ => 0
  | alt l r => max l.nesting r.nesting
  | seq l r => max (nestingWithin 1 l l.nesting) (nestingWithin 1 r r.nesting)
  | star p | maybe p => nestingWithin 2 p p.nesting

lemma nesting_mapTerms : (p.mapTerms f).nesting = p.nesting := by
  induction p with
  | empty => rfl
  | event t => rfl
  | alt l r ihl ihr => simp only [mapTerms, nesting, ihl, ihr]
  | seq l r ihl ihr => simp only [mapTerms, nesting, nestingWithin, rank_mapTerms, ihl, ihr]
  | star p ih => simp only [mapTerms, nesting, nestingWithin, rank_mapTerms, ih]
  | maybe p ih => simp only [mapTerms, nesting, nestingWithin, rank_mapTerms, ih]

lemma Named.reread (h : p.Named) : p.reread.Named := by
  intro t ht
  rw [Pattern.reread, terms_mapTerms] at ht
  obtain ⟨u, hu, rfl⟩ := List.mem_map.mp ht
  exact (h u hu).reread

lemma lexemes_grouped {cs : List Char} {ks : List TokenKind} {min : Nat}
    (h : ∀ {rest}, EndsName rest → lexemes (cs ++ rest) = ks ++ lexemes rest)
    (ends : EndsName rest) :
    lexemes (grouped min p cs ++ rest) = enclosed min p.reread ks ++ lexemes rest := by
  rw [grouped, enclosed, reread, rank_mapTerms]
  split
  · simp only [List.append_assoc, List.cons_append, List.nil_append]
    rw [lexemes_sign rfl, h (endsName_cons (by decide)), lexemes_sign rfl]
  · exact h ends

lemma lexemes_chars (named : p.Named) (ends : EndsName rest) :
    lexemes (p.chars ++ rest) = p.reread.kinds ++ lexemes rest := by
  induction p generalizing rest with
  | empty =>
    simp only [chars, List.cons_append, List.nil_append]
    rw [lexemes_sign rfl, lexemes_sign rfl]
    rfl
  | event t => exact EventTerm.lexemes_chars (named t List.mem_cons_self) ends
  | alt l r ihl ihr =>
    obtain ⟨hl, hr⟩ := List.forall_mem_append.mp named
    simp only [chars, List.append_assoc, List.cons_append]
    rw [ihl hl (endsName_cons (by decide)), lexemes_blank (by decide), lexemes_sign rfl,
      lexemes_blank (by decide), ihr hr ends, ← List.cons_append, ← List.append_assoc]
    rfl
  | seq l r ihl ihr =>
    obtain ⟨hl, hr⟩ := List.forall_mem_append.mp named
    simp only [chars, List.append_assoc, List.cons_append]
    rw [lexemes_grouped (ihl hl) (endsName_cons (by decide)), lexemes_sign rfl,
      lexemes_blank (by decide), lexemes_grouped (ihr hr) ends, ← List.cons_append,
      ← List.append_assoc]
    rfl
  | star p ih =>
    simp only [chars, List.append_assoc, List.singleton_append]
    rw [lexemes_grouped (ih named) (endsName_cons (by decide)), lexemes_sign rfl, List.append_cons]
    rfl
  | maybe p ih =>
    simp only [chars, List.append_assoc, List.singleton_append]
    rw [lexemes_grouped (ih named) (endsName_cons (by decide)), lexemes_sign rfl, List.append_cons]
    rfl

end Pattern

end Interleaving
