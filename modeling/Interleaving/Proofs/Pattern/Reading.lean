import Interleaving.Pattern.Parse
import Interleaving.Proofs.Except
import Interleaving.Proofs.Pattern.Grammar
import Interleaving.Proofs.Pattern.Tokens

/-!
# Reading follows the grammar

Reading applies the rules of the grammar from left to right. What it reads is derived
(`Pattern.Sound`), and what is derived is read, whatever stands after it, as long as that cannot
belong to it (`Pattern.Accepted`); so a text is read as a tree exactly if its tokens derive the tree
(`Pattern.parse_eq_ok_iff_derives`). Only the empty text is refused without a place
(`Pattern.Located`).
-/

namespace Interleaving

namespace EventTerm

/-- Adds conditions one after another. -/
def constrainAll (t : EventTerm) (cs : List (String × String)) : EventTerm :=
  cs.foldl (fun t c => t.constrain c.1 c.2) t

lemma constrainAll_ofName {name : String} {cs : List (String × String)} :
    (ofName name).constrainAll cs = ⟨name, .ofList cs⟩ := by
  suffices h : ∀ t : EventTerm,
      t.constrainAll cs = ⟨t.name, cs.foldl (fun m c => m.insert c.1 c.2) t.constraints⟩ from h _
  induction cs with
  | nil => exact fun _ => rfl
  | cons c cs ih => exact fun t => ih (t.constrain c.1 c.2)

end EventTerm

namespace Pattern

variable {fuel depth n m : Nat} {all ts rest : List Token} {us vs : List TokenKind}
variable {p q : Pattern} {k : Phrase} {t u : EventTerm}

lemma pass_eq_ok {kind : TokenKind} {expected : Expected} :
    pass kind expected ts = .ok rest ↔ ∃ s, ts = ⟨kind, s⟩ :: rest := by
  unfold pass
  split
  · next t ts =>
    obtain ⟨found, span⟩ := t
    split
    · next h =>
      cases h
      simp
    · next h => simp [h]
  · simp

section Soundness

/-- The tokens of a phrase with the tree `p`, in groups that may still nest so deep around them,
stand before the rest. -/
def Reads (k : Phrase) (depth : Nat) (ts : List Token) (p : Pattern) (rest : List Token) : Prop :=
  ∃ us n, ts = us ++ rest ∧ n ≤ maxNesting - depth ∧ Derives k n (us.map (·.kind)) p

lemma Reads.sequence (h : Reads .sequence depth ts p rest) :
    Reads .alternatives depth ts p rest := by
  obtain ⟨us, n, e, hn, d⟩ := h
  exact ⟨us, n, e, hn, .sequence d⟩

lemma Reads.bar {s : Span} (l : Reads .alternatives depth all p (⟨.bar, s⟩ :: ts))
    (r : Reads .sequence depth ts q rest) : Reads .alternatives depth all (alt p q) rest := by
  obtain ⟨us, n, rfl, hn, dp⟩ := l
  obtain ⟨vs, m, rfl, hm, dq⟩ := r
  refine ⟨us ++ ⟨.bar, s⟩ :: vs, max n m, by simp, max_le hn hm, ?_⟩
  rw [List.map_append, List.map_cons]
  exact .bar dp dq

lemma Reads.repeated (h : Reads .repeated depth ts p rest) : Reads .sequence depth ts p rest := by
  obtain ⟨us, n, e, hn, d⟩ := h
  exact ⟨us, n, e, hn, .repeated d⟩

lemma Reads.comma {s : Span} (l : Reads .sequence depth all p (⟨.comma, s⟩ :: ts))
    (r : Reads .repeated depth ts q rest) : Reads .sequence depth all (seq p q) rest := by
  obtain ⟨us, n, rfl, hn, dp⟩ := l
  obtain ⟨vs, m, rfl, hm, dq⟩ := r
  refine ⟨us ++ ⟨.comma, s⟩ :: vs, max n m, by simp, max_le hn hm, ?_⟩
  rw [List.map_append, List.map_cons]
  exact .comma dp dq

lemma Reads.next (l : Reads .sequence depth all p ts) (r : Reads .repeated depth ts q rest) :
    Reads .sequence depth all (seq p q) rest := by
  obtain ⟨us, n, rfl, hn, dp⟩ := l
  obtain ⟨vs, m, rfl, hm, dq⟩ := r
  refine ⟨us ++ vs, max n m, by simp, max_le hn hm, ?_⟩
  rw [List.map_append]
  exact .next dp dq

lemma Reads.item (h : Reads .item depth ts p rest) : Reads .repeated depth ts p rest := by
  obtain ⟨us, n, e, hn, d⟩ := h
  exact ⟨us, n, e, hn, .item d⟩

lemma Reads.group {s z : Span} (h : Reads .alternatives (depth + 1) ts p (⟨.closeParen, z⟩ :: rest))
    (shallow : depth < maxNesting) : Reads .item depth (⟨.openParen, s⟩ :: ts) p rest := by
  obtain ⟨us, n, rfl, hn, d⟩ := h
  refine ⟨⟨.openParen, s⟩ :: us ++ [⟨.closeParen, z⟩], n + 1, by simp, by omega, ?_⟩
  rw [List.map_append]
  exact .group d

/-- One more sign belongs to an item that has been read. -/
lemma Reads.sign {t : Token} (h : Reads .repeated depth all p (t :: rest))
    (sign : ∀ {n us}, Derives .repeated n us p → Derives .repeated n (us ++ [t.kind]) q) :
    Reads .repeated depth all q rest := by
  obtain ⟨us, n, rfl, hn, d⟩ := h
  refine ⟨us ++ [t], n, by simp, hn, ?_⟩
  rw [List.map_append]
  exact sign d

lemma Reads.repetitions (h : Reads .repeated depth all p ts) :
    Reads .repeated depth all (repetitions p ts).1 (repetitions p ts).2 := by
  fun_induction Pattern.repetitions p ts with
  | case1 p s ts ih => exact ih (h.sign .plus)
  | case2 p s ts ih => exact ih (h.sign .question)
  | case3 p s ts ih => exact ih (h.sign .star)
  | case4 p ts => exact h

/-- Conditions stand, with the closing brace, before the rest. -/
def ReadsConditions (ts : List Token) (cs : List (String × String)) (rest : List Token) : Prop :=
  ∃ us vs, ts = us ++ rest ∧ us.map (·.kind) = vs ++ [.closeBrace] ∧ Conditions vs cs

lemma ReadsConditions.last {f v : String} {kind : TokenKind} {s s' s'' z : Span}
    (h : Value kind v) :
    ReadsConditions (⟨.ident f, s⟩ :: ⟨.colon, s'⟩ :: ⟨kind, s''⟩ :: ⟨.closeBrace, z⟩ :: rest)
      [(f, v)] rest :=
  ⟨[⟨.ident f, s⟩, ⟨.colon, s'⟩, ⟨kind, s''⟩, ⟨.closeBrace, z⟩], _, rfl, rfl, .last h⟩

lemma ReadsConditions.more {f v : String} {kind : TokenKind} {s s' s'' z : Span}
    {cs : List (String × String)} (h : Value kind v) (r : ReadsConditions ts cs rest) :
    ReadsConditions (⟨.ident f, s⟩ :: ⟨.colon, s'⟩ :: ⟨kind, s''⟩ :: ⟨.comma, z⟩ :: ts)
      ((f, v) :: cs) rest := by
  obtain ⟨us, vs, rfl, e, d⟩ := r
  refine ⟨⟨.ident f, s⟩ :: ⟨.colon, s'⟩ :: ⟨kind, s''⟩ :: ⟨.comma, z⟩ :: us,
    .ident f :: .colon :: kind :: .comma :: vs, rfl, ?_, .more h d⟩
  simp only [List.map_cons, e, List.cons_append]

lemma readsConditions_of_conditions (h : conditions t ts = .ok (u, rest)) :
    ∃ cs, ReadsConditions ts cs rest ∧ u = t.constrainAll cs := by
  fun_induction conditions t ts with
  | case1 t f _ _ v _ _ ts ih =>
    obtain ⟨cs, r, rfl⟩ := ih h
    exact ⟨(f, v) :: cs, r.more .quoted, rfl⟩
  | case2 t f _ _ v _ ts _ =>
    obtain ⟨rest, h, e⟩ := map_eq_ok.mp h
    cases e
    obtain ⟨z, rfl⟩ := pass_eq_ok.mp h
    exact ⟨[(f, v)], .last .quoted, rfl⟩
  | case3 t f _ _ _ _ ts ih =>
    obtain ⟨cs, r, rfl⟩ := ih h
    exact ⟨(f, EventTerm.wildcard) :: cs, r.more .any, rfl⟩
  | case4 t f _ _ _ ts _ =>
    obtain ⟨rest, h, e⟩ := map_eq_ok.mp h
    cases e
    obtain ⟨z, rfl⟩ := pass_eq_ok.mp h
    exact ⟨[(f, EventTerm.wildcard)], .last .any, rfl⟩
  | case5 => cases h
  | case6 => cases h
  | case7 => cases h

lemma reads_braces (h : braces t ts = .ok (u, rest)) :
    ∃ us cs, ts = us ++ rest ∧ Braces (us.map (·.kind)) cs ∧ u = t.constrainAll cs := by
  unfold braces at h
  split at h
  · next s z ts =>
    cases h
    exact ⟨[⟨.openBrace, s⟩, ⟨.closeBrace, z⟩], [], rfl, .empty, rfl⟩
  · next s ts _ =>
    obtain ⟨cs, ⟨us, vs, rfl, e, d⟩, rfl⟩ := readsConditions_of_conditions h
    refine ⟨⟨.openBrace, s⟩ :: us, cs, rfl, ?_, rfl⟩
    rw [List.map_cons, e]
    exact .some d
  · cases h
    exact ⟨[], [], rfl, .none, rfl⟩

/-- What is read within so many rules applied one inside the other is derived. The functions that go
on reading are given what has been read before. -/
structure Sound (fuel : Nat) : Prop where
  alternatives : ∀ {depth ts p rest}, Pattern.alternatives fuel depth ts = .ok (p, rest) →
    Reads .alternatives depth ts p rest
  moreAlternatives : ∀ {depth all p ts q rest}, Reads .alternatives depth all p ts →
    Pattern.moreAlternatives fuel depth p ts = .ok (q, rest) → Reads .alternatives depth all q rest
  sequence : ∀ {depth ts p rest}, Pattern.sequence fuel depth ts = .ok (p, rest) →
    Reads .sequence depth ts p rest
  moreSequence : ∀ {depth all p ts q rest}, Reads .sequence depth all p ts →
    Pattern.moreSequence fuel depth p ts = .ok (q, rest) → Reads .sequence depth all q rest
  repeated : ∀ {depth ts p rest}, Pattern.repeated fuel depth ts = .ok (p, rest) →
    Reads .repeated depth ts p rest
  item : ∀ {depth ts p rest}, Pattern.item fuel depth ts = .ok (p, rest) →
    Reads .item depth ts p rest

lemma sound_zero : Sound 0 where
  alternatives h := by
    rw [Pattern.alternatives] at h
    cases h
  moreAlternatives _ h := by
    rw [Pattern.moreAlternatives] at h
    cases h
  sequence h := by
    rw [Pattern.sequence] at h
    cases h
  moreSequence _ h := by
    rw [Pattern.moreSequence] at h
    cases h
  repeated h := by
    rw [Pattern.repeated] at h
    cases h
  item h := by
    rw [Pattern.item] at h
    cases h

lemma Sound.item_succ (s : Sound fuel) (h : Pattern.item (fuel + 1) depth ts = .ok (p, rest)) :
    Reads .item depth ts p rest := by
  unfold Pattern.item at h
  split at h
  case h_1 => cases h
  case h_2 name z ts _ =>
    obtain ⟨⟨u, rest⟩, h, e⟩ := map_eq_ok.mp h
    cases e
    obtain ⟨us, cs, rfl, d, rfl⟩ := reads_braces h
    rw [EventTerm.constrainAll_ofName]
    exact ⟨⟨.ident name, z⟩ :: us, 0, rfl, Nat.zero_le _, .event d⟩
  case h_3 z ts _ =>
    cases h
    exact ⟨[⟨.dot, z⟩], 0, rfl, Nat.zero_le _, .any⟩
  case h_4 z z' ts _ =>
    cases h
    exact ⟨[⟨.openParen, z⟩, ⟨.closeParen, z'⟩], 0, rfl, Nat.zero_le _, .empty⟩
  case h_5 e =>
    obtain rfl := Nat.succ.inj e
    split at h
    · cases h
    · next shallow =>
      obtain ⟨⟨p, ts⟩, inner, h⟩ := bind_eq_ok.mp h
      obtain ⟨rest, close, h⟩ := bind_eq_ok.mp h
      cases h
      obtain ⟨z', rfl⟩ := pass_eq_ok.mp close
      exact (s.alternatives inner).group (by omega)
  case h_6 => cases h

lemma Sound.repeated_succ (s : Sound fuel)
    (h : Pattern.repeated (fuel + 1) depth ts = .ok (p, rest)) : Reads .repeated depth ts p rest := by
  rw [Pattern.repeated] at h
  obtain ⟨⟨q, ts'⟩, hq, e⟩ := map_eq_ok.mp h
  have e : repetitions q ts' = (p, rest) := e
  have r := (s.item hq).item.repetitions
  rw [e] at r
  exact r

/-- The next item of a sequence begins after a comma, if there is one. -/
lemma nextItem?_eq_some (h : nextItem? ts = some rest) :
    (∃ s, ts = ⟨.comma, s⟩ :: rest) ∨ ts = rest := by
  unfold nextItem? at h
  split at h
  · next s _ =>
    cases h
    exact .inl ⟨s, rfl⟩
  · exact .inr (Option.some.inj h)
  · exact .inr (Option.some.inj h)
  · exact .inr (Option.some.inj h)
  · cases h

lemma Sound.moreSequence_succ (s : Sound fuel) (l : Reads .sequence depth all p ts)
    (h : Pattern.moreSequence (fuel + 1) depth p ts = .ok (q, rest)) :
    Reads .sequence depth all q rest := by
  rw [Pattern.moreSequence] at h
  split at h
  · next ts' e =>
    obtain ⟨⟨r, ts''⟩, hr, more⟩ := bind_eq_ok.mp h
    obtain ⟨z, rfl⟩ | rfl := nextItem?_eq_some e
    · exact s.moreSequence (l.comma (s.repeated hr)) more
    · exact s.moreSequence (l.next (s.repeated hr)) more
  · cases h
    exact l

lemma Sound.sequence_succ (s : Sound fuel)
    (h : Pattern.sequence (fuel + 1) depth ts = .ok (p, rest)) : Reads .sequence depth ts p rest := by
  rw [Pattern.sequence] at h
  obtain ⟨⟨q, ts'⟩, hq, h⟩ := bind_eq_ok.mp h
  exact s.moreSequence (s.repeated hq).repeated h

lemma Sound.moreAlternatives_succ (s : Sound fuel) (l : Reads .alternatives depth all p ts)
    (h : Pattern.moreAlternatives (fuel + 1) depth p ts = .ok (q, rest)) :
    Reads .alternatives depth all q rest := by
  unfold Pattern.moreAlternatives at h
  split at h
  case h_1 => cases h
  case h_2 e =>
    obtain rfl := Nat.succ.inj e
    obtain ⟨⟨r, ts'⟩, hr, more⟩ := bind_eq_ok.mp h
    exact s.moreAlternatives (l.bar (s.sequence hr)) more
  case h_3 =>
    cases h
    exact l

lemma Sound.alternatives_succ (s : Sound fuel)
    (h : Pattern.alternatives (fuel + 1) depth ts = .ok (p, rest)) :
    Reads .alternatives depth ts p rest := by
  rw [Pattern.alternatives] at h
  obtain ⟨⟨q, ts'⟩, hq, h⟩ := bind_eq_ok.mp h
  exact s.moreAlternatives (s.sequence hq).sequence h

lemma sound (fuel : Nat) : Sound fuel := by
  induction fuel with
  | zero => exact sound_zero
  | succ fuel ih =>
    exact ⟨ih.alternatives_succ, ih.moreAlternatives_succ, ih.sequence_succ, ih.moreSequence_succ,
      ih.repeated_succ, ih.item_succ⟩

end Soundness

section Completeness

lemma map_kind_eq_cons {kind : TokenKind} : ts.map (·.kind) = kind :: us ↔
    ∃ s ts', ts = ⟨kind, s⟩ :: ts' ∧ ts'.map (·.kind) = us := by
  rw [List.map_eq_cons_iff]
  constructor
  · rintro ⟨⟨_, s⟩, ts', rfl, rfl, h⟩
    exact ⟨s, ts', rfl, h⟩
  · rintro ⟨s, ts', rfl, h⟩
    exact ⟨_, ts', rfl, rfl, h⟩

lemma map_kind_eq_append_cons {kind : TokenKind} : ts.map (·.kind) = us ++ kind :: vs ↔
    ∃ front s back, ts = front ++ ⟨kind, s⟩ :: back ∧ front.map (·.kind) = us ∧
      back.map (·.kind) = vs := by
  rw [List.map_eq_append_iff]
  constructor
  · rintro ⟨front, _, rfl, e, e'⟩
    obtain ⟨s, back, rfl, e''⟩ := map_kind_eq_cons.mp e'
    exact ⟨front, s, back, rfl, e, e''⟩
  · rintro ⟨front, s, back, rfl, e, e'⟩
    exact ⟨front, _, rfl, e, map_kind_eq_cons.mpr ⟨s, back, rfl, e'⟩⟩

/-- How large a phrase before it a token can go on: a brace an event, a sign an item, a comma or the
start of an item a sequence. -/
def reach : TokenKind → Nat
  | .openBrace => 0
  | .plus | .question | .star => 1
  | .comma | .ident _ | .dot | .openParen => 2
  | _ => 3

/-- How far the tokens reach that can belong to a phrase. Signs after an item and its signs are read
with them, whatever they belong to. -/
def Phrase.size : Phrase → Nat
  | item | repeated => 0
  | sequence => 1
  | alternatives => 2

/-- What stands after a phrase does not go on it. -/
def Phrase.EndsBefore (k : Phrase) (rest : List Token) : Prop :=
  ∀ t ∈ rest.head?, k.size < reach t.kind

lemma Phrase.EndsBefore.mono {l : Phrase} (h : k.EndsBefore rest) (le : l.size ≤ k.size) :
    l.EndsBefore rest :=
  fun t ht => le.trans_lt (h t ht)

lemma endsBefore_cons {t : Token} (h : k.size < reach t.kind) : k.EndsBefore (t :: rest) := by
  rintro _ ⟨⟩
  exact h

lemma braces_of_endsBefore (h : Phrase.item.EndsBefore rest) : braces t rest = .ok (t, rest) := by
  unfold braces
  split
  · exact absurd (h _ rfl) (Nat.lt_irrefl 0)
  · exact absurd (h _ rfl) (Nat.lt_irrefl 0)
  · rfl

lemma repetitions_of_endsBefore (h : Phrase.sequence.EndsBefore rest) :
    repetitions p rest = (p, rest) := by
  unfold repetitions
  split
  · exact absurd (h _ rfl) (Nat.lt_irrefl 1)
  · exact absurd (h _ rfl) (Nat.lt_irrefl 1)
  · exact absurd (h _ rfl) (Nat.lt_irrefl 1)
  · rfl

lemma nextItem?_of_endsBefore (h : Phrase.alternatives.EndsBefore rest) :
    nextItem? rest = none := by
  unfold nextItem?
  split
  · exact absurd (h _ rfl) (Nat.lt_irrefl 2)
  · exact absurd (h _ rfl) (Nat.lt_irrefl 2)
  · exact absurd (h _ rfl) (Nat.lt_irrefl 2)
  · exact absurd (h _ rfl) (Nat.lt_irrefl 2)
  · rfl

lemma reach_of_beginsItem {kind : TokenKind} (h : beginsItem kind = true) : 1 < reach kind := by
  cases kind
  case ident => exact Nat.lt_succ_self 1
  case dot => exact Nat.lt_succ_self 1
  case openParen => exact Nat.lt_succ_self 1
  all_goals cases h

lemma nextItem?_of_beginsItem {t : Token} (h : beginsItem t.kind = true) :
    nextItem? (t :: rest) = some (t :: rest) := by
  obtain ⟨kind, s⟩ := t
  cases kind
  case ident => rfl
  case dot => rfl
  case openParen => rfl
  all_goals cases h

lemma conditions_append {cs : List (String × String)} {s : Span} (h : Conditions us cs)
    (e : ts.map (·.kind) = us) :
    conditions t (ts ++ ⟨.closeBrace, s⟩ :: rest) = .ok (t.constrainAll cs, rest) := by
  induction h generalizing t ts with
  | last hv =>
    obtain ⟨_, _, rfl, e₁⟩ := map_kind_eq_cons.mp e
    obtain ⟨_, _, rfl, e₂⟩ := map_kind_eq_cons.mp e₁
    obtain ⟨_, _, rfl, e₃⟩ := map_kind_eq_cons.mp e₂
    obtain rfl := List.map_eq_nil_iff.mp e₃
    cases hv with
    | quoted => rfl
    | any => rfl
  | more hv _ ih =>
    obtain ⟨_, _, rfl, e₁⟩ := map_kind_eq_cons.mp e
    obtain ⟨_, _, rfl, e₂⟩ := map_kind_eq_cons.mp e₁
    obtain ⟨_, _, rfl, e₃⟩ := map_kind_eq_cons.mp e₂
    obtain ⟨_, _, rfl, e₄⟩ := map_kind_eq_cons.mp e₃
    cases hv with
    | quoted => exact ih e₄
    | any => exact ih e₄

lemma braces_append {cs : List (String × String)} (h : Braces us cs)
    (e : ts.map (·.kind) = us) (ends : Phrase.item.EndsBefore rest) :
    braces t (ts ++ rest) = .ok (t.constrainAll cs, rest) := by
  cases h with
  | none =>
    obtain rfl := List.map_eq_nil_iff.mp e
    exact braces_of_endsBefore ends
  | empty =>
    obtain ⟨_, _, rfl, e₁⟩ := map_kind_eq_cons.mp e
    obtain ⟨_, _, rfl, e₂⟩ := map_kind_eq_cons.mp e₁
    obtain rfl := List.map_eq_nil_iff.mp e₂
    rfl
  | some h =>
    obtain ⟨_, _, rfl, e₁⟩ := map_kind_eq_cons.mp e
    obtain ⟨inner, s, _, rfl, e₂, e₃⟩ := map_kind_eq_append_cons.mp e₁
    obtain rfl := List.map_eq_nil_iff.mp e₃
    rw [List.cons_append, List.append_assoc, List.singleton_append]
    -- Braces around nothing have a case of their own, before that of the conditions.
    have inside : conditions t (inner ++ ⟨.closeBrace, s⟩ :: rest) =
        .ok (t.constrainAll cs, rest) := conditions_append h e₂
    cases h with
    | last _ =>
      obtain ⟨_, _, rfl, _⟩ := map_kind_eq_cons.mp e₂
      exact inside
    | more _ _ =>
      obtain ⟨_, _, rfl, _⟩ := map_kind_eq_cons.mp e₂
      exact inside

/-- How reading a phrase ends, with the rest still to be read: with the phrase's tree, or at the
function that would go on from there. -/
def Phrase.Outcome (fuel depth length : Nat) (ts : List Token) (p : Pattern) (rest : List Token) :
    Phrase → Prop
  | item => Pattern.item fuel depth ts = .ok (p, rest)
  | repeated => Pattern.repeated fuel depth ts = .ok (repetitions p rest)
  | sequence => ∃ left, fuel ≤ left + length ∧
      Pattern.sequence fuel depth ts = moreSequence left depth p rest
  | alternatives => ∃ left, fuel ≤ left + length ∧
      Pattern.alternatives fuel depth ts = moreAlternatives left depth p rest

/-- How many rules fewer than four for each token are applied to read a phrase. -/
def Phrase.spared : Phrase → Nat
  | item => 3
  | repeated => 2
  | sequence => 1
  | alternatives => 0

/-- Tokens of these kinds are read as this tree wherever they stand, if they do not go on and their
groups do not nest too deep. -/
def Accepted (k : Phrase) (n : Nat) (us : List TokenKind) (p : Pattern) : Prop :=
  ∀ {ts rest : List Token} {fuel depth : Nat}, ts.map (·.kind) = us → n ≤ maxNesting - depth →
    k.EndsBefore rest → 4 * us.length ≤ fuel + k.spared →
    k.Outcome fuel depth us.length (ts ++ rest) p rest

lemma exists_fuel (pos : 0 < us.length) (enough : 4 * us.length ≤ fuel + k.spared) :
    ∃ fuel', fuel = fuel' + 1 := by
  have : k.spared ≤ 3 := by cases k <;> decide
  exact ⟨fuel - 1, by omega⟩

lemma accepted_event {name : String} {cs : List (String × String)} (h : Braces us cs) :
    Accepted .item 0 (.ident name :: us) (event ⟨name, .ofList cs⟩) := by
  intro ts rest fuel depth e _ ends enough
  obtain ⟨_, _, rfl, e₁⟩ := map_kind_eq_cons.mp e
  obtain ⟨fuel, rfl⟩ := exists_fuel (by simp) enough
  simp only [Phrase.Outcome, List.cons_append, Pattern.item, braces_append h e₁ ends]
  rw [EventTerm.constrainAll_ofName]
  rfl

lemma accepted_any : Accepted .item 0 [.dot] (event .any) := by
  intro ts rest fuel depth e _ _ enough
  obtain ⟨_, _, rfl, e₁⟩ := map_kind_eq_cons.mp e
  obtain rfl := List.map_eq_nil_iff.mp e₁
  obtain ⟨fuel, rfl⟩ := exists_fuel (by simp) enough
  simp only [Phrase.Outcome, List.cons_append, List.nil_append, Pattern.item]

lemma accepted_empty : Accepted .item 0 [.openParen, .closeParen] empty := by
  intro ts rest fuel depth e _ _ enough
  obtain ⟨_, _, rfl, e₁⟩ := map_kind_eq_cons.mp e
  obtain ⟨_, _, rfl, e₂⟩ := map_kind_eq_cons.mp e₁
  obtain rfl := List.map_eq_nil_iff.mp e₂
  obtain ⟨fuel, rfl⟩ := exists_fuel (by simp) enough
  simp only [Phrase.Outcome, List.cons_append, List.nil_append, Pattern.item]

lemma Accepted.item (h : Accepted .item n us p) (pos : 0 < us.length) :
    Accepted .repeated n us p := by
  intro ts rest fuel depth e hn ends enough
  obtain ⟨fuel, rfl⟩ := exists_fuel pos enough
  simp only [Phrase.spared] at enough
  have inner : Pattern.item fuel depth (ts ++ rest) = .ok (p, rest) :=
    h e hn ends (by simp only [Phrase.spared]; omega)
  simp only [Phrase.Outcome, Pattern.repeated, inner]
  rfl

/-- A sign is read with the item before it. -/
lemma Accepted.sign {sign : TokenKind} (h : Accepted .repeated n us p) (size : 0 < reach sign)
    (applied : ∀ {s rest}, repetitions p (⟨sign, s⟩ :: rest) = repetitions q rest) :
    Accepted .repeated n (us ++ [sign]) q := by
  intro ts rest fuel depth e hn _ enough
  simp only [Phrase.spared, List.length_append, List.length_singleton] at enough
  obtain ⟨front, s, _, rfl, e₁, e₂⟩ := map_kind_eq_append_cons.mp e
  obtain rfl := List.map_eq_nil_iff.mp e₂
  have inner : Pattern.repeated fuel depth (front ++ ⟨sign, s⟩ :: rest) =
      .ok (repetitions p (⟨sign, s⟩ :: rest)) :=
    h e₁ hn (endsBefore_cons size) (by simp only [Phrase.spared]; omega)
  rw [List.append_assoc, List.singleton_append]
  exact inner.trans (congrArg _ applied)

lemma Accepted.repeated (h : Accepted .repeated n us p) (pos : 0 < us.length) :
    Accepted .sequence n us p := by
  intro ts rest fuel depth e hn ends enough
  obtain ⟨fuel, rfl⟩ := exists_fuel pos enough
  simp only [Phrase.spared] at enough
  have inner : Pattern.repeated fuel depth (ts ++ rest) = .ok (repetitions p rest) :=
    h e hn (ends.mono (Nat.zero_le _)) (by simp only [Phrase.spared]; omega)
  refine ⟨fuel, by omega, ?_⟩
  simp only [Pattern.sequence, inner, repetitions_of_endsBefore ends]
  rfl

/-- A sequence goes on with one more item, if that begins where the next item is looked for. -/
lemma Accepted.goOn {ts rest mid : List Token} {depth left : Nat}
    (h : Accepted .repeated m vs q) (e : ts.map (·.kind) = vs) (hm : m ≤ maxNesting - depth)
    (ends : Phrase.sequence.EndsBefore rest) (enough : 4 * vs.length ≤ left + 1)
    (next : nextItem? mid = some (ts ++ rest)) :
    moreSequence (left + 1) depth p mid = moreSequence left depth (seq p q) rest := by
  have inner : Pattern.repeated left depth (ts ++ rest) = .ok (repetitions q rest) :=
    h e hm (ends.mono (Nat.zero_le _)) (by simp only [Phrase.spared]; omega)
  simp only [moreSequence, next, inner, repetitions_of_endsBefore ends]
  rfl

lemma Accepted.comma (h : Accepted .sequence n us p) (h' : Accepted .repeated m vs q)
    (pos : 0 < us.length) : Accepted .sequence (max n m) (us ++ .comma :: vs) (seq p q) := by
  intro ts rest fuel depth e hn ends enough
  simp only [Phrase.spared, List.length_append, List.length_cons] at enough ⊢
  obtain ⟨front, s, back, rfl, e₁, e₂⟩ := map_kind_eq_append_cons.mp e
  obtain ⟨left, hleft, inner⟩ : Phrase.Outcome fuel depth us.length
      (front ++ ⟨.comma, s⟩ :: (back ++ rest)) p (⟨.comma, s⟩ :: (back ++ rest)) .sequence :=
    h e₁ (le_trans (le_max_left ..) hn) (endsBefore_cons (Nat.lt_succ_self 1))
      (by simp only [Phrase.spared]; omega)
  obtain ⟨left, rfl⟩ : ∃ left', left = left' + 1 := ⟨left - 1, by omega⟩
  refine ⟨left, by omega, ?_⟩
  rw [List.append_assoc, List.cons_append, inner]
  exact h'.goOn e₂ (le_trans (le_max_right ..) hn) ends (by omega) rfl

lemma Accepted.next (h : Accepted .sequence n us p) (h' : Accepted .repeated m vs q)
    (pos : 0 < us.length) (begins : ∃ kind ws, vs = kind :: ws ∧ beginsItem kind = true) :
    Accepted .sequence (max n m) (us ++ vs) (seq p q) := by
  intro ts rest fuel depth e hn ends enough
  simp only [Phrase.spared, List.length_append] at enough ⊢
  obtain ⟨kind, ws, rfl, begins⟩ := begins
  obtain ⟨front, s, back, rfl, e₁, e₂⟩ := map_kind_eq_append_cons.mp e
  obtain ⟨left, hleft, inner⟩ : Phrase.Outcome fuel depth us.length
      (front ++ ⟨kind, s⟩ :: (back ++ rest)) p (⟨kind, s⟩ :: (back ++ rest)) .sequence :=
    h e₁ (le_trans (le_max_left ..) hn) (endsBefore_cons (reach_of_beginsItem begins))
      (by simp only [Phrase.spared]; omega)
  obtain ⟨left, rfl⟩ : ∃ left', left = left' + 1 :=
    ⟨left - 1, by simp only [List.length_cons] at enough; omega⟩
  refine ⟨left, by simp only [List.length_cons]; omega, ?_⟩
  rw [List.append_assoc, List.cons_append, inner]
  have tail : (⟨kind, s⟩ :: back : List Token).map (·.kind) = kind :: ws :=
    map_kind_eq_cons.mpr ⟨s, back, rfl, e₂⟩
  -- Without a comma the next item is looked for where it begins.
  exact h'.goOn tail (le_trans (le_max_right ..) hn) ends
    (by simp only [List.length_cons] at enough ⊢; omega) (nextItem?_of_beginsItem begins)

lemma moreSequence_of_endsBefore (h : Phrase.alternatives.EndsBefore rest) :
    moreSequence (fuel + 1) depth p rest = .ok (p, rest) := by
  simp only [moreSequence, nextItem?_of_endsBefore h]

lemma Accepted.sequence (h : Accepted .sequence n us p) (pos : 0 < us.length) :
    Accepted .alternatives n us p := by
  intro ts rest fuel depth e hn ends enough
  obtain ⟨fuel, rfl⟩ := exists_fuel pos enough
  simp only [Phrase.spared] at enough
  obtain ⟨left, hleft, inner⟩ : Phrase.Outcome fuel depth us.length (ts ++ rest) p rest .sequence :=
    h e hn (ends.mono (Nat.le_succ 1)) (by simp only [Phrase.spared]; omega)
  obtain ⟨left, rfl⟩ : ∃ left', left = left' + 1 := ⟨left - 1, by omega⟩
  rw [moreSequence_of_endsBefore ends] at inner
  refine ⟨fuel, by omega, ?_⟩
  simp only [Pattern.alternatives, inner]
  rfl

lemma Accepted.bar (h : Accepted .alternatives n us p) (h' : Accepted .sequence m vs q)
    (pos : 0 < us.length) (pos' : 0 < vs.length) :
    Accepted .alternatives (max n m) (us ++ .bar :: vs) (alt p q) := by
  intro ts rest fuel depth e hn ends enough
  simp only [Phrase.spared, List.length_append, List.length_cons] at enough ⊢
  obtain ⟨front, s, back, rfl, e₁, e₂⟩ := map_kind_eq_append_cons.mp e
  obtain ⟨left, hleft, inner⟩ : Phrase.Outcome fuel depth us.length
      (front ++ ⟨.bar, s⟩ :: (back ++ rest)) p (⟨.bar, s⟩ :: (back ++ rest)) .alternatives :=
    h e₁ (le_trans (le_max_left ..) hn) (endsBefore_cons (Nat.lt_succ_self 2))
      (by simp only [Phrase.spared]; omega)
  obtain ⟨left, rfl⟩ : ∃ left', left = left' + 1 := ⟨left - 1, by omega⟩
  obtain ⟨last, hlast, inner'⟩ : Phrase.Outcome left depth vs.length (back ++ rest) q rest .sequence :=
    h' e₂ (le_trans (le_max_right ..) hn) (ends.mono (Nat.le_succ 1))
      (by simp only [Phrase.spared]; omega)
  obtain ⟨last, rfl⟩ : ∃ last', last = last' + 1 := ⟨last - 1, by omega⟩
  rw [moreSequence_of_endsBefore ends] at inner'
  refine ⟨left, by omega, ?_⟩
  rw [List.append_assoc, List.cons_append, inner]
  simp only [moreAlternatives, inner']
  rfl

lemma moreAlternatives_of_not_bar {s : Span} {kind : TokenKind} (h : kind ≠ .bar) :
    moreAlternatives (fuel + 1) depth p (⟨kind, s⟩ :: ts) = .ok (p, ⟨kind, s⟩ :: ts) := by
  rw [moreAlternatives]
  · exact Nat.succ_ne_zero fuel
  · intro _ _ _ _ e
    exact h (congrArg Token.kind (List.cons.inj e).1)

lemma item_group {s s' : Span} {kind : TokenKind} (h : kind ≠ .closeParen)
    (shallow : depth < maxNesting) :
    Pattern.item (fuel + 1) depth (⟨.openParen, s⟩ :: ⟨kind, s'⟩ :: ts) =
      Pattern.alternatives fuel (depth + 1) (⟨kind, s'⟩ :: ts) >>= fun (p, ts) =>
        pass .closeParen .closeParen ts >>= fun ts => .ok (p, ts) := by
  rw [Pattern.item, if_neg (Nat.not_le.mpr shallow)]
  · rfl
  · intro _ _ e
    exact h (congrArg Token.kind (List.cons.inj e).1)

lemma Accepted.group (h : Accepted .alternatives n us p)
    (begins : ∃ kind ws, us = kind :: ws ∧ beginsItem kind = true) :
    Accepted .item (n + 1) (.openParen :: (us ++ [.closeParen])) p := by
  intro ts rest fuel depth e hn _ enough
  simp only [Phrase.spared, List.length_cons, List.length_append, List.length_nil] at enough
  obtain ⟨s, _, rfl, e₁⟩ := map_kind_eq_cons.mp e
  obtain ⟨front, z, _, rfl, e₂, e₃⟩ := map_kind_eq_append_cons.mp e₁
  obtain rfl := List.map_eq_nil_iff.mp e₃
  obtain ⟨fuel, rfl⟩ : ∃ fuel', fuel = fuel' + 1 := ⟨fuel - 1, by omega⟩
  obtain ⟨left, hleft, inner⟩ : Phrase.Outcome fuel (depth + 1) us.length
      (front ++ ⟨.closeParen, z⟩ :: rest) p (⟨.closeParen, z⟩ :: rest) .alternatives :=
    h e₂ (by omega) (endsBefore_cons (Nat.lt_succ_self 2)) (by simp only [Phrase.spared]; omega)
  obtain ⟨left, rfl⟩ : ∃ left', left = left' + 1 := ⟨left - 1, by omega⟩
  obtain ⟨kind, ws, rfl, begins⟩ := begins
  obtain ⟨s', front, rfl, -⟩ := map_kind_eq_cons.mp e₂
  -- What is grouped begins like an item, so the two parentheses are not those of the empty group.
  have open' : kind ≠ .closeParen := by
    rintro rfl
    cases begins
  rw [List.cons_append] at inner
  simp only [Phrase.Outcome, List.cons_append, List.append_assoc, List.nil_append]
  rw [item_group open' (by omega), inner, moreAlternatives_of_not_bar (by decide)]
  rfl

lemma Derives.accepted (h : Derives k n us p) : Accepted k n us p := by
  -- The rules recurse on the left where reading loops: each outcome says where the loop goes on.
  induction h with
  | sequence h ih => exact ih.sequence h.length_pos
  | bar h h' ih ih' => exact ih.bar ih' h.length_pos h'.length_pos
  | repeated h ih => exact ih.repeated h.length_pos
  | comma h _ ih ih' => exact ih.comma ih' h.length_pos
  | next h h' ih ih' => exact ih.next ih' h.length_pos h'.exists_head
  | item h ih => exact ih.item h.length_pos
  | plus _ ih => exact ih.sign (by decide) rfl
  | question _ ih => exact ih.sign (by decide) rfl
  | star _ ih => exact ih.sign (by decide) rfl
  | event h => exact accepted_event h
  | any => exact accepted_any
  | empty => exact accepted_empty
  | group h ih => exact ih.group h.exists_head

end Completeness

section Places

/-- Reading here fails, if at all, at some place of the text. -/
def FailsAtPlace {α : Type} (x : Except ParseError α) : Prop :=
  ∀ e, x = .error e → e.span?.isSome

variable {α β : Type} {x : Except ParseError α}

lemma failsAtPlace_ok {a : α} : FailsAtPlace (.ok a : Except ParseError α) := nofun

lemma failsAtPlace_atToken {expected : Expected} :
    FailsAtPlace (.error (.atToken expected ts) : Except ParseError α) := by
  rintro _ ⟨⟩
  unfold ParseError.atToken
  split
  · rfl
  · split <;> rfl

lemma FailsAtPlace.bind {f : α → Except ParseError β} (h : FailsAtPlace x)
    (h' : ∀ a, FailsAtPlace (f a)) : FailsAtPlace (x >>= f) := by
  cases x with
  | error e =>
    rintro _ ⟨⟩
    exact h e rfl
  | ok a => exact h' a

lemma FailsAtPlace.map {f : α → β} (h : FailsAtPlace x) : FailsAtPlace (x.map f) := by
  cases x with
  | error e =>
    rintro _ ⟨⟩
    exact h e rfl
  | ok a => exact nofun

lemma FailsAtPlace.ne_emptyPattern (h : FailsAtPlace x) : x ≠ .error .emptyPattern := by
  intro e
  cases h _ e

lemma failsAtPlace_pass {kind : TokenKind} {expected : Expected} :
    FailsAtPlace (pass kind expected ts) := by
  unfold pass
  split
  · split
    · exact failsAtPlace_ok
    · exact failsAtPlace_atToken
  · exact failsAtPlace_atToken

lemma failsAtPlace_conditions : FailsAtPlace (conditions t ts) := by
  fun_induction conditions t ts with
  | case1 _ _ _ _ _ _ _ _ ih => exact ih
  | case2 => exact failsAtPlace_pass.map
  | case3 _ _ _ _ _ _ _ ih => exact ih
  | case4 => exact failsAtPlace_pass.map
  | case5 => exact failsAtPlace_atToken
  | case6 => exact failsAtPlace_atToken
  | case7 => exact failsAtPlace_atToken

lemma failsAtPlace_braces : FailsAtPlace (braces t ts) := by
  unfold braces
  split
  · exact failsAtPlace_ok
  · exact failsAtPlace_conditions
  · exact failsAtPlace_ok

/-- What fails within so many rules applied one inside the other fails at some place. -/
structure Located (fuel : Nat) : Prop where
  alternatives : ∀ depth ts, FailsAtPlace (Pattern.alternatives fuel depth ts)
  moreAlternatives : ∀ depth p ts, FailsAtPlace (Pattern.moreAlternatives fuel depth p ts)
  sequence : ∀ depth ts, FailsAtPlace (Pattern.sequence fuel depth ts)
  moreSequence : ∀ depth p ts, FailsAtPlace (Pattern.moreSequence fuel depth p ts)
  repeated : ∀ depth ts, FailsAtPlace (Pattern.repeated fuel depth ts)
  item : ∀ depth ts, FailsAtPlace (Pattern.item fuel depth ts)

lemma located_zero : Located 0 where
  alternatives _ _ := by
    rw [Pattern.alternatives]
    exact failsAtPlace_atToken
  moreAlternatives _ _ _ := by
    rw [Pattern.moreAlternatives]
    exact failsAtPlace_atToken
  sequence _ _ := by
    rw [Pattern.sequence]
    exact failsAtPlace_atToken
  moreSequence _ _ _ := by
    rw [Pattern.moreSequence]
    exact failsAtPlace_atToken
  repeated _ _ := by
    rw [Pattern.repeated]
    exact failsAtPlace_atToken
  item _ _ := by
    rw [Pattern.item]
    exact failsAtPlace_atToken

lemma Located.item_succ (l : Located fuel) : FailsAtPlace (Pattern.item (fuel + 1) depth ts) := by
  unfold Pattern.item
  split
  case h_1 => exact failsAtPlace_atToken
  case h_2 => exact failsAtPlace_braces.map
  case h_3 => exact failsAtPlace_ok
  case h_4 => exact failsAtPlace_ok
  case h_5 e =>
    obtain rfl := Nat.succ.inj e
    split
    · rintro _ ⟨⟩
      rfl
    · exact (l.alternatives _ _).bind fun _ => failsAtPlace_pass.bind fun _ => failsAtPlace_ok
  case h_6 => exact failsAtPlace_atToken

lemma Located.moreSequence_succ (l : Located fuel) :
    FailsAtPlace (Pattern.moreSequence (fuel + 1) depth p ts) := by
  rw [Pattern.moreSequence]
  split
  · exact (l.repeated _ _).bind fun _ => l.moreSequence _ _ _
  · exact failsAtPlace_ok

lemma Located.moreAlternatives_succ (l : Located fuel) :
    FailsAtPlace (Pattern.moreAlternatives (fuel + 1) depth p ts) := by
  unfold Pattern.moreAlternatives
  split
  case h_1 => exact failsAtPlace_atToken
  case h_2 e =>
    obtain rfl := Nat.succ.inj e
    exact (l.sequence _ _).bind fun _ => l.moreAlternatives _ _ _
  case h_3 => exact failsAtPlace_ok

lemma located (fuel : Nat) : Located fuel := by
  induction fuel with
  | zero => exact located_zero
  | succ fuel ih =>
    refine ⟨fun _ _ => ?_, fun _ _ _ => ih.moreAlternatives_succ, fun _ _ => ?_,
      fun _ _ _ => ih.moreSequence_succ, fun _ _ => ?_, fun _ _ => ih.item_succ⟩
    · rw [Pattern.alternatives]
      exact (ih.sequence _ _).bind fun _ => ih.moreAlternatives _ _ _
    · rw [Pattern.sequence]
      exact (ih.repeated _ _).bind fun _ => ih.moreSequence _ _ _
    · rw [Pattern.repeated]
      exact (ih.item _ _).map

end Places

section Texts

variable {s : Span}

lemma ofTokens_eq_ok (h : ofTokens ts = .ok p) :
    ∃ us n z rest, ts = us ++ ⟨.stop, z⟩ :: rest ∧ n ≤ maxNesting ∧
      Derives .alternatives n (us.map (·.kind)) p := by
  unfold ofTokens at h
  split at h
  · cases h
  · obtain ⟨⟨q, rest⟩, read, ended⟩ := bind_eq_ok.mp h
    obtain ⟨us, n, rfl, hn, d⟩ := (sound _).alternatives read
    simp only at ended
    split at ended
    · next z rest _ =>
      cases ended
      exact ⟨us, n, z, rest, rfl, hn, d⟩
    · cases ended

lemma ofTokens_of_derives (d : Derives .alternatives n (ts.map (·.kind)) p)
    (hn : n ≤ maxNesting) : ofTokens (ts ++ [⟨.stop, s⟩]) = .ok p := by
  obtain ⟨left, hleft, read⟩ : Phrase.Outcome (4 * (ts ++ [(⟨.stop, s⟩ : Token)]).length + 4) 0
      (ts.map (·.kind)).length (ts ++ [⟨.stop, s⟩]) p [⟨.stop, s⟩] .alternatives :=
    d.accepted rfl hn (endsBefore_cons (t := ⟨.stop, s⟩) (Nat.lt_succ_self 2))
      (by simp only [Phrase.spared, List.length_map, List.length_append]; omega)
  simp only [List.length_append, List.length_map, List.length_singleton] at hleft
  obtain ⟨left, rfl⟩ : ∃ left', left = left' + 1 := ⟨left - 1, by omega⟩
  obtain ⟨kind, vs, e, begins⟩ := d.exists_head
  obtain ⟨s', ts, rfl, -⟩ := map_kind_eq_cons.mp e
  rw [moreAlternatives_of_not_bar (by decide)] at read
  rw [ofTokens, read]
  · rfl
  · rintro _ _ ⟨⟩
    cases begins

lemma head?_map_kind_eq_some {kind : TokenKind} :
    (ts.map (·.kind)).head? = some kind ↔ ∃ s rest, ts = ⟨kind, s⟩ :: rest := by
  rw [List.head?_eq_some_iff]
  constructor
  · rintro ⟨us, h⟩
    obtain ⟨s, rest, rfl, -⟩ := map_kind_eq_cons.mp h
    exact ⟨s, rest, rfl⟩
  · rintro ⟨s, rest, rfl⟩
    exact ⟨_, rfl⟩

lemma ofTokens_eq_emptyPattern_iff :
    ofTokens ts = .error .emptyPattern ↔ ∃ s rest, ts = ⟨.stop, s⟩ :: rest := by
  constructor
  · intro h
    unfold ofTokens at h
    split at h
    · exact ⟨_, _, rfl⟩
    · refine absurd h (FailsAtPlace.ne_emptyPattern (((located _).alternatives _ _).bind fun _ => ?_))
      simp only
      split
      · exact failsAtPlace_ok
      · exact failsAtPlace_atToken
  · rintro ⟨s, rest, rfl⟩
    rfl

lemma parse_eq_ok {source : String} : parse source = .ok p ↔ ∃ n us, n ≤ maxNesting ∧
    (Token.scan source).map (·.kind) = us ++ [.stop] ∧ Derives .alternatives n us p := by
  constructor
  · intro h
    obtain ⟨ts, n, s, rest, e, hn, d⟩ := ofTokens_eq_ok h
    obtain ⟨ks, scanned, cuts⟩ := Token.exists_lexemes source.toList
    have scanned : (Token.scan source).map (·.kind) = ks ++ [.stop] := scanned
    refine ⟨n, _, hn, ?_, d⟩
    rw [e, List.map_append, List.map_cons] at scanned ⊢
    -- Only the last token is the end, so nothing stands after the one that reading stops at.
    obtain rfl | ⟨rest, last, rfl⟩ := List.eq_nil_or_concat rest
    · rfl
    · rw [List.concat_eq_append, List.map_append, ← List.cons_append, ← List.append_assoc]
        at scanned
      obtain ⟨rfl, -⟩ := List.append_inj' scanned rfl
      exact absurd (cuts .stop (by simp)) not_false
  · rintro ⟨n, us, hn, e, d⟩
    obtain ⟨ts, s, _, e', rfl, e₁⟩ := map_kind_eq_append_cons.mp e
    obtain rfl := List.map_eq_nil_iff.mp e₁
    rw [parse, e']
    exact ofTokens_of_derives d hn

lemma parse_eq_emptyPattern {source : String} :
    parse source = .error .emptyPattern ↔ ∀ c ∈ source.toList, Text.isBlank c = true := by
  rw [← Token.head?_lexemes_eq_stop_iff, parse, ofTokens_eq_emptyPattern_iff]
  exact head?_map_kind_eq_some.symm

/-- A text is read as a tree exactly if its tokens up to the end derive the tree, with groups nesting
no deeper than allowed; and it is refused as empty exactly if it holds only blanks. -/
theorem parse_eq_ok_iff_derives (source : String) :
    (∀ p, parse source = .ok p ↔ ∃ n us, n ≤ maxNesting ∧
      (Token.scan source).map (·.kind) = us ++ [.stop] ∧ Derives .alternatives n us p) ∧
    (parse source = .error .emptyPattern ↔ ∀ c ∈ source.toList, Text.isBlank c = true) :=
  ⟨fun _ => parse_eq_ok, parse_eq_emptyPattern⟩

end Texts

end Pattern

end Interleaving
