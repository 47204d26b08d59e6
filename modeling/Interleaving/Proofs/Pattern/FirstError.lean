import Mathlib
import Interleaving.Pattern.Parse
import Interleaving.Proofs.Pattern.Cursor
import Interleaving.Proofs.Pattern.Cuts
import Interleaving.Proofs.Pattern.Reading

/-!
# The first token that cannot stand

Reading moves a cursor over the tokens (`Pattern.Tracked`), and stops where it has no move left. What has
been passed by then can be completed, since every cursor leads to the end, and the token there cannot
stand, since no accepted text leads past it: `Pattern.parse_error_is_first`.
-/

namespace Interleaving.Pattern

variable {c c' c'' : Cursor} {fuel depth bound : Nat} {ts rest : List Token} {t : Token}

section Moves

/-- Tokens lead a cursor on, up to the rest. -/
def Moves (c : Cursor) (ts : List Token) (c' : Cursor) (rest : List Token) : Prop :=
  ∃ us, ts = us ++ rest ∧ c.follow? (us.map (·.kind)) = some c'

lemma Moves.refl : Moves c ts c ts := ⟨[], rfl, rfl⟩

lemma Moves.cons (next : c.next? t.kind = some c') (h : Moves c' ts c'' rest) :
    Moves c (t :: ts) c'' rest := by
  obtain ⟨us, rfl, h⟩ := h
  refine ⟨t :: us, rfl, ?_⟩
  rw [List.map_cons, Cursor.follow?_cons next]
  exact h

lemma Moves.trans {later : List Token} (h : Moves c ts c' rest) (h' : Moves c' rest c'' later) :
    Moves c ts c'' later := by
  obtain ⟨us, rfl, h⟩ := h
  obtain ⟨vs, rfl, h'⟩ := h'
  refine ⟨us ++ vs, (List.append_assoc ..).symm, ?_⟩
  rw [List.map_append, Cursor.follow?_append h]
  exact h'

/-- The cursor comes to a place before the end where the next token may not come. The error is about
that token, unless it stands in a group inside too many others. -/
def Fails (c : Cursor) (ts : List Token) (e : ParseError) : Prop :=
  ∃ c' rest, Moves c ts c' rest ∧ c'.place ≠ .ended ∧ (∀ t ∈ rest.head?, c'.next? t.kind = none) ∧
    ((∃ expected, e = .atToken expected rest) ∨ ∃ s, e = .tooDeep s)

/-- Reading moves the cursor over what is read, to where `Q` holds, or fails. -/
def Runs {α : Type} (c : Cursor) (ts : List Token) (Q : Cursor → List Token → Prop) :
    Except ParseError (α × List Token) → Prop
  | .ok a => ∃ c', Moves c ts c' a.2 ∧ Q c' a.2
  | .error e => Fails c ts e

variable {α β : Type} {Q R : Cursor → List Token → Prop} {x : Except ParseError (α × List Token)}

lemma Runs.atToken {expected : Expected} (place : c.place ≠ .ended)
    (refused : ∀ t ∈ ts.head?, c.next? t.kind = none) :
    Runs (α := α) c ts Q (.error (.atToken expected ts)) :=
  ⟨c, ts, .refl, place, refused, .inl ⟨expected, rfl⟩⟩

lemma Runs.of_moves (h : Moves c ts c' rest) (h' : Runs c' rest Q x) : Runs c ts Q x := by
  cases x with
  | ok a =>
    obtain ⟨c'', more, hQ⟩ := h'
    exact ⟨c'', h.trans more, hQ⟩
  | error e =>
    obtain ⟨c'', later, more, stuck⟩ := h'
    exact ⟨c'', later, h.trans more, stuck⟩

lemma Runs.cons (next : c.next? t.kind = some c') (h : Runs c' ts Q x) : Runs c (t :: ts) Q x :=
  .of_moves (.cons next .refl) h

lemma Runs.bind {f : α × List Token → Except ParseError (β × List Token)} (h : Runs c ts Q x)
    (h' : ∀ a c' rest, Q c' rest → Runs c' rest R (f (a, rest))) : Runs c ts R (x >>= f) := by
  cases x with
  | ok a =>
    obtain ⟨c', moves, hQ⟩ := h
    exact .of_moves moves (h' a.1 c' a.2 hQ)
  | error e => exact h

lemma Runs.map {f : α × List Token → β × List Token} (h : Runs c ts Q x)
    (h' : ∀ a c' rest, Q c' rest → Runs c' rest R (.ok (f (a, rest)))) :
    Runs c ts R (x.map f) := by
  cases x with
  | ok a => exact h.bind (f := fun a => .ok (f a)) h'
  | error e => exact h

lemma Runs.mono (h : Runs c ts Q x) (imp : ∀ c' rest, Q c' rest → R c' rest) : Runs c ts R x := by
  cases x with
  | ok a =>
    obtain ⟨c', moves, hQ⟩ := h
    exact ⟨c', moves, imp _ _ hQ⟩
  | error e => exact h

lemma pass_cases (kind : TokenKind) (expected : Expected) (ts : List Token) :
    (∃ s rest, ts = ⟨kind, s⟩ :: rest ∧ pass kind expected ts = .ok rest) ∨
    ((∀ t ∈ ts.head?, t.kind ≠ kind) ∧ pass kind expected ts = .error (.atToken expected ts)) := by
  unfold pass
  split
  · next t rest =>
    obtain ⟨found, s⟩ := t
    split_ifs with h
    · cases h
      exact .inl ⟨s, rest, rfl, rfl⟩
    · refine .inr ⟨?_, rfl⟩
      rintro _ ⟨⟩
      exact h
  · exact .inr ⟨nofun, rfl⟩

end Moves

section Fields

/-- The name of a field has to come. -/
structure AwaitsField (c : Cursor) (depth : Nat) (ts : List Token) : Prop where
  place : c.place ≠ .ended
  field : ∀ name, c.next? (.ident name) = some ⟨depth, .colon⟩
  refuses : ∀ t ∈ ts.head?, (∀ name, t.kind ≠ .ident name) → c.next? t.kind = none

lemma awaitsField : AwaitsField ⟨depth, .field⟩ depth ts := by
  refine ⟨nofun, fun _ => rfl, fun t _ other => ?_⟩
  cases e : t.kind
  case ident name => exact absurd e (other name)
  all_goals rfl

lemma awaitsField_of_braced (h : ∀ t ∈ ts.head?, t.kind ≠ .closeBrace) :
    AwaitsField ⟨depth, .braced⟩ depth ts := by
  refine ⟨nofun, fun _ => rfl, fun t ht other => ?_⟩
  cases e : t.kind
  case ident name => exact absurd e (other name)
  case closeBrace => exact absurd e (h t ht)
  all_goals rfl

/-- The conditions of an event are complete. -/
structure Braced (depth bound : Nat) (c : Cursor) (rest : List Token) : Prop where
  closed : c = ⟨depth, .done⟩
  shorter : rest.length < bound

lemma Runs.braced_cons {α : Type} {x : Except ParseError (α × List Token)}
    (next : c.next? t.kind = some c') (h : Runs c' ts (Braced depth ts.length) x) :
    Runs c (t :: ts) (Braced depth (t :: ts).length) x :=
  .cons next (h.mono fun _ _ inner => ⟨inner.closed, Nat.lt_succ_of_lt inner.shorter⟩)

lemma runs_closeBrace {term : EventTerm} (comma : ∀ t ∈ ts.head?, t.kind ≠ .comma) :
    Runs ⟨depth, .valued⟩ ts (Braced depth ts.length)
      ((pass .closeBrace .closeBrace ts).map (term, ·)) := by
  obtain ⟨s, rest, rfl, e⟩ | ⟨other, e⟩ := pass_cases .closeBrace .closeBrace ts
  · rw [e]
    exact .cons rfl ⟨_, .refl, rfl, Nat.lt_succ_self _⟩
  · rw [e]
    refine Runs.atToken nofun fun t ht => ?_
    cases e : t.kind
    case comma => exact absurd e (comma t ht)
    case closeBrace => exact absurd e (other t ht)
    all_goals rfl

lemma head_ne {kind : TokenKind} (h : ∀ s rest, ts = ⟨kind, s⟩ :: rest → False) :
    ∀ t ∈ ts.head?, t.kind ≠ kind := by
  rintro ⟨_, s⟩ ht rfl
  obtain ⟨rest, e⟩ := List.head?_eq_some_iff.mp ht
  exact h s rest e

lemma runs_conditions {term : EventTerm} (awaits : AwaitsField c depth ts) :
    Runs c ts (Braced depth ts.length) (conditions term ts) := by
  fun_induction conditions term ts generalizing c with
  | case1 term f _ _ v _ _ ts ih =>
    refine .braced_cons (awaits.field f) (.braced_cons rfl (.braced_cons rfl ?_))
    exact .braced_cons rfl (ih awaitsField)
  | case2 term f _ _ v _ ts comma =>
    refine .braced_cons (awaits.field f) (.braced_cons rfl (.braced_cons rfl ?_))
    exact runs_closeBrace (head_ne comma)
  | case3 term f _ _ _ _ ts ih =>
    refine .braced_cons (awaits.field f) (.braced_cons rfl (.braced_cons rfl ?_))
    exact .braced_cons rfl (ih awaitsField)
  | case4 term f _ _ _ ts comma =>
    refine .braced_cons (awaits.field f) (.braced_cons rfl (.braced_cons rfl ?_))
    exact runs_closeBrace (head_ne comma)
  | case5 term f _ _ ts _ str _ star =>
    refine .cons (awaits.field f) (.cons rfl (.atToken (by simp) fun t ht => ?_))
    cases e : t.kind
    case str v => exact absurd e (head_ne (str v) t ht)
    case star => exact absurd e (head_ne star t ht)
    all_goals rfl
  | case6 term f _ ts _ _ _ _ colon =>
    refine .cons (awaits.field f) (.atToken (by simp) fun t ht => ?_)
    cases e : t.kind
    case colon => exact absurd e (head_ne colon t ht)
    all_goals rfl
  | case7 term ts _ _ _ _ _ ident =>
    exact .atToken awaits.place fun t ht => awaits.refuses t ht fun f => head_ne (ident f) t ht

end Fields

section Phrases

/-- Whether reading a phrase goes on with a token that stands after a part of it. -/
def Phrase.adds (k : Phrase) (kind : TokenKind) : Bool :=
  match k with
  | .item => false
  | .repeated => kind ∈ [.plus, .question, .star]
  | .sequence => kind ∈ [.plus, .question, .star, .comma] || beginsItem kind
  | .alternatives => kind ∈ [.plus, .question, .star, .comma, .bar] || beginsItem kind

/-- An item has to come, in so many groups. -/
structure Awaits (c : Cursor) (depth : Nat) (ts : List Token) : Prop where
  place : c.place ≠ .ended
  asks : c.Asks depth
  refuses : ∀ t ∈ ts.head?, beginsItem t.kind = false → c.next? t.kind = none

/-- A phrase is complete, and nothing that follows belongs to it. -/
structure Ended (k : Phrase) (depth bound : Nat) (c : Cursor) (rest : List Token) : Prop where
  behind : c.IsBehind depth
  shorter : rest.length < bound
  /-- The conditions of an event have been read. -/
  next : ∀ t ∈ rest.head?, c.next? t.kind = Cursor.goesOn depth t.kind
  apart : ∀ t ∈ rest.head?, k.adds t.kind = false

lemma Ended.mono {k : Phrase} {n : Nat} (h : Ended k depth n c rest) (le : n ≤ bound) :
    Ended k depth bound c rest := ⟨h.behind, h.shorter.trans_le le, h.next, h.apart⟩

lemma Ended.place {k : Phrase} (h : Ended k depth bound c rest) : c.place ≠ .ended := by
  obtain place | place := h.behind.place
  · rw [place]
    nofun
  · rw [place]
    nofun

lemma ended_done (shorter : rest.length < bound) : Ended .item depth bound ⟨depth, .done⟩ rest :=
  ⟨Cursor.isBehind_done, shorter, fun _ _ => rfl, fun _ _ => rfl⟩

lemma runs_braces {term : EventTerm} :
    Runs ⟨depth, .named⟩ ts (Ended .item depth (ts.length + 1)) (braces term ts) := by
  unfold braces
  split
  · exact .cons rfl (.cons rfl ⟨_, .refl, ended_done (by simp only [List.length_cons]; omega)⟩)
  · next s ts open' =>
    refine .cons rfl ((runs_conditions (awaitsField_of_braced (head_ne open'))).mono ?_)
    rintro _ rest ⟨rfl, shorter⟩
    exact ended_done (by simp only [List.length_cons]; omega)
  · next ts _ plain =>
    refine ⟨_, .refl, Cursor.isBehind_named, Nat.lt_succ_self _, fun t ht => ?_, fun _ _ => rfl⟩
    exact if_neg (head_ne plain t ht)

lemma runs_repetitions {p : Pattern} (h : Ended .item depth bound c ts) :
    Runs c ts (Ended .repeated depth bound) (.ok (repetitions p ts)) := by
  fun_induction repetitions p ts generalizing c with
  | case1 p s ts ih =>
    exact .cons (h.next _ rfl) (ih (ended_done ((Nat.lt_succ_self _).trans h.shorter)))
  | case2 p s ts ih =>
    exact .cons (h.next _ rfl) (ih (ended_done ((Nat.lt_succ_self _).trans h.shorter)))
  | case3 p s ts ih =>
    exact .cons (h.next _ rfl) (ih (ended_done ((Nat.lt_succ_self _).trans h.shorter)))
  | case4 p ts plus question star =>
    refine ⟨c, .refl, h.behind, h.shorter, h.next, fun t ht => ?_⟩
    have other : t.kind ∉ [.plus, .question, .star] := by
      simp [head_ne plus t ht, head_ne question t ht, head_ne star t ht]
    exact decide_eq_false other

/-- Reading within so many rules applied one inside the other moves the cursor to the end of what is
read or to where it is stuck. The bounds grow with the phrases, and each token is worth four rules. -/
structure Tracked (fuel : Nat) : Prop where
  alternatives : ∀ {c depth ts}, Awaits c depth ts → 4 * ts.length + 4 ≤ fuel →
    Runs c ts (Ended .alternatives depth ts.length) (Pattern.alternatives fuel depth ts)
  moreAlternatives : ∀ {c depth bound p ts}, Ended .sequence depth bound c ts →
    4 * ts.length + 4 ≤ fuel →
    Runs c ts (Ended .alternatives depth bound) (Pattern.moreAlternatives fuel depth p ts)
  sequence : ∀ {c depth ts}, Awaits c depth ts → 4 * ts.length + 3 ≤ fuel →
    Runs c ts (Ended .sequence depth ts.length) (Pattern.sequence fuel depth ts)
  moreSequence : ∀ {c depth bound p ts}, Ended .repeated depth bound c ts →
    4 * ts.length + 3 ≤ fuel →
    Runs c ts (Ended .sequence depth bound) (Pattern.moreSequence fuel depth p ts)
  repeated : ∀ {c depth ts}, Awaits c depth ts → 4 * ts.length + 2 ≤ fuel →
    Runs c ts (Ended .repeated depth ts.length) (Pattern.repeated fuel depth ts)
  item : ∀ {c depth ts}, Awaits c depth ts → 4 * ts.length + 1 ≤ fuel →
    Runs c ts (Ended .item depth ts.length) (Pattern.item fuel depth ts)

lemma tracked_zero : Tracked 0 where
  alternatives _ enough := absurd enough (by omega)
  moreAlternatives _ enough := absurd enough (by omega)
  sequence _ enough := absurd enough (by omega)
  moreSequence _ enough := absurd enough (by omega)
  repeated _ enough := absurd enough (by omega)
  item _ enough := absurd enough (by omega)

lemma begins_eq_none {kind : TokenKind} (h : beginsItem kind = false) :
    Cursor.begins depth kind = none := by
  cases kind
  case ident | dot | openParen => all_goals cases h
  all_goals rfl

lemma awaits_item : Awaits ⟨depth, .item⟩ depth ts :=
  ⟨nofun, Cursor.asks_item, fun _ _ other => begins_eq_none other⟩

lemma awaits_opened (shallow : depth < maxNesting) (open' : ∀ t ∈ ts.head?, t.kind ≠ .closeParen) :
    Awaits ⟨depth, .opened⟩ (depth + 1) ts := by
  refine ⟨nofun, Cursor.asks_opened shallow, fun t ht other => ?_⟩
  rw [Cursor.next?, if_neg (open' t ht), if_pos shallow]
  exact begins_eq_none other

/-- What ends a phrase is refused, but for the closing parenthesis of a group around it and the end of a
text without groups. -/
lemma goesOn_eq_none {kind : TokenKind} (apart : Phrase.alternatives.adds kind = false)
    (close : depth ≠ 0 → kind ≠ .closeParen) (stop : depth = 0 → kind ≠ .stop) :
    Cursor.goesOn depth kind = none := by
  cases kind
  case closeParen =>
    apply if_pos
    by_contra group
    exact close group rfl
  case stop => exact if_neg fun whole => stop whole rfl
  case ident | dot | openParen | comma | bar | plus | question | star => all_goals cases apart
  all_goals rfl

lemma head_beginsItem (ident : ∀ name s rest, ts = ⟨.ident name, s⟩ :: rest → False)
    (dot : ∀ s rest, ts = ⟨.dot, s⟩ :: rest → False)
    (group : ∀ s rest, ts = ⟨.openParen, s⟩ :: rest → False) :
    ∀ t ∈ ts.head?, beginsItem t.kind = false := by
  intro t ht
  cases e : t.kind
  case ident name => exact absurd e (head_ne (ident name) t ht)
  case dot => exact absurd e (head_ne dot t ht)
  case openParen => exact absurd e (head_ne group t ht)
  all_goals rfl

lemma nextItem?_cases (ts : List Token) :
    (∃ s rest, ts = ⟨.comma, s⟩ :: rest ∧ nextItem? ts = some rest) ∨
    (∃ t rest, ts = t :: rest ∧ beginsItem t.kind = true ∧ nextItem? ts = some ts) ∨
    (nextItem? ts = none ∧ ∀ t ∈ ts.head?, t.kind ≠ .comma ∧ beginsItem t.kind = false) := by
  unfold nextItem?
  split
  · exact .inl ⟨_, _, rfl, rfl⟩
  · exact .inr (.inl ⟨_, _, rfl, rfl, rfl⟩)
  · exact .inr (.inl ⟨_, _, rfl, rfl, rfl⟩)
  · exact .inr (.inl ⟨_, _, rfl, rfl, rfl⟩)
  · next comma ident dot group =>
    exact .inr (.inr ⟨rfl, fun t ht => ⟨head_ne comma t ht, head_beginsItem ident dot group t ht⟩⟩)

variable {k : Phrase} {p : Pattern}

lemma runs_closeParen (ended : Ended .alternatives (depth + 1) bound c ts) :
    Runs c ts (Ended .item depth bound)
      (pass .closeParen .closeParen ts >>= fun ts => .ok (p, ts)) := by
  obtain ⟨s, rest, rfl, e⟩ | ⟨other, e⟩ := pass_cases .closeParen .closeParen ts
  · rw [e]
    exact .cons (ended.next _ rfl)
      ⟨_, .refl, ended_done ((Nat.lt_succ_self _).trans ended.shorter)⟩
  · rw [e]
    refine Runs.atToken ended.place fun t ht => ?_
    rw [ended.next t ht]
    exact goesOn_eq_none (ended.apart t ht) (fun _ => other t ht)
      fun whole => absurd whole (Nat.succ_ne_zero depth)

lemma Tracked.item_succ (tracked : Tracked fuel) (awaits : Awaits c depth ts)
    (enough : 4 * ts.length + 1 ≤ fuel + 1) :
    Runs c ts (Ended .item depth ts.length) (Pattern.item (fuel + 1) depth ts) := by
  unfold Pattern.item
  split
  case h_1 e => cases e
  case h_2 name s ts _ =>
    refine .cons (awaits.asks _ rfl) (runs_braces.map fun term c' rest ended => ?_)
    exact ⟨c', .refl, ended⟩
  case h_3 s ts _ =>
    exact .cons (awaits.asks _ rfl) ⟨_, .refl, ended_done (Nat.lt_succ_self _)⟩
  case h_4 s s' ts _ =>
    refine .cons (awaits.asks _ rfl) (.cons rfl ⟨_, .refl, ended_done ?_⟩)
    simp only [List.length_cons]
    omega
  case h_5 s ts open' e =>
    obtain rfl := Nat.succ.inj e
    refine .cons (awaits.asks _ rfl) ?_
    split
    · next deep =>
      refine ⟨_, ts, .refl, by simp, fun t ht => ?_, .inr ⟨s, rfl⟩⟩
      rw [Cursor.next?, if_neg (head_ne open' t ht), if_neg (Nat.not_lt.mpr deep)]
    · next shallow =>
      have within := awaits_opened (Nat.not_le.mp shallow) (head_ne open')
      simp only [List.length_cons] at enough
      refine (tracked.alternatives within (by omega)).bind fun p c' rest ended => ?_
      exact runs_closeParen (ended.mono (Nat.le_succ _))
  case h_6 ident dot _ zero group =>
    refine .atToken awaits.place fun t ht => awaits.refuses t ht ?_
    exact head_beginsItem ident dot (fun s ts => group fuel s ts rfl) t ht

lemma Tracked.repeated_succ (tracked : Tracked fuel) (awaits : Awaits c depth ts)
    (enough : 4 * ts.length + 2 ≤ fuel + 1) :
    Runs c ts (Ended .repeated depth ts.length) (Pattern.repeated (fuel + 1) depth ts) := by
  rw [Pattern.repeated]
  exact (tracked.item awaits (by omega)).map fun _ _ _ ended => runs_repetitions ended

lemma Tracked.moreSequence_succ (tracked : Tracked fuel) (ended : Ended .repeated depth bound c ts)
    (enough : 4 * ts.length + 3 ≤ fuel + 1) :
    Runs c ts (Ended .sequence depth bound) (Pattern.moreSequence (fuel + 1) depth p ts) := by
  rw [Pattern.moreSequence]
  obtain ⟨s, rest, rfl, e⟩ | ⟨t, rest, rfl, begins, e⟩ | ⟨e, other⟩ := nextItem?_cases ts
  · rw [e]
    have le := ended.shorter
    simp only [List.length_cons] at enough le
    refine .cons (ended.next _ rfl) ((tracked.repeated awaits_item (by omega)).bind ?_)
    intro q c' later ended'
    have shorter := ended'.shorter
    exact tracked.moreSequence (ended'.mono (by omega)) (by omega)
  · rw [e]
    have awaits : Awaits c depth (t :: rest) := by
      refine ⟨ended.place, ended.behind.asks, ?_⟩
      rintro _ ⟨⟩ other
      cases begins.symm.trans other
    refine (tracked.repeated awaits (by omega)).bind fun q c' later ended' => ?_
    have shorter := ended'.shorter
    exact tracked.moreSequence (ended'.mono ended.shorter.le) (by omega)
  · rw [e]
    refine ⟨c, .refl, ended.behind, ended.shorter, ended.next, fun t ht => ?_⟩
    obtain ⟨comma, begins⟩ := other t ht
    have signs := ended.apart t ht
    simp_all [Phrase.adds]

lemma Tracked.sequence_succ (tracked : Tracked fuel) (awaits : Awaits c depth ts)
    (enough : 4 * ts.length + 3 ≤ fuel + 1) :
    Runs c ts (Ended .sequence depth ts.length) (Pattern.sequence (fuel + 1) depth ts) := by
  rw [Pattern.sequence]
  refine (tracked.repeated awaits (by omega)).bind fun p c' rest ended => ?_
  have shorter := ended.shorter
  exact tracked.moreSequence ended (by omega)

lemma Tracked.moreAlternatives_succ (tracked : Tracked fuel)
    (ended : Ended .sequence depth bound c ts) (enough : 4 * ts.length + 4 ≤ fuel + 1) :
    Runs c ts (Ended .alternatives depth bound)
      (Pattern.moreAlternatives (fuel + 1) depth p ts) := by
  unfold Pattern.moreAlternatives
  split
  case h_1 e => cases e
  case h_2 s ts e =>
    obtain rfl := Nat.succ.inj e
    have le := ended.shorter
    simp only [List.length_cons] at enough le
    refine .cons (ended.next _ rfl) ((tracked.sequence awaits_item (by omega)).bind ?_)
    intro q c' later ended'
    have shorter := ended'.shorter
    exact tracked.moreAlternatives (ended'.mono (by omega)) (by omega)
  case h_3 bar =>
    refine ⟨c, .refl, ended.behind, ended.shorter, ended.next, fun t ht => ?_⟩
    have bar := head_ne (fun s ts => bar fuel s ts rfl) t ht
    have others := ended.apart t ht
    simp_all [Phrase.adds]

lemma Tracked.alternatives_succ (tracked : Tracked fuel) (awaits : Awaits c depth ts)
    (enough : 4 * ts.length + 4 ≤ fuel + 1) :
    Runs c ts (Ended .alternatives depth ts.length) (Pattern.alternatives (fuel + 1) depth ts) := by
  rw [Pattern.alternatives]
  refine (tracked.sequence awaits (by omega)).bind fun p c' rest ended => ?_
  have shorter := ended.shorter
  exact tracked.moreAlternatives ended (by omega)

lemma tracked (fuel : Nat) : Tracked fuel := by
  induction fuel with
  | zero => exact tracked_zero
  | succ fuel ih =>
    exact ⟨ih.alternatives_succ, ih.moreAlternatives_succ, ih.sequence_succ, ih.moreSequence_succ,
      ih.repeated_succ, ih.item_succ⟩

end Phrases

section Texts

variable {source : String} {e : ParseError} {p : Pattern} {us : List Token}

lemma fails_of_ofTokens (h : ofTokens ts = .error e) (notEmpty : e ≠ .emptyPattern) :
    Fails .start ts e := by
  unfold ofTokens at h
  split at h
  · cases h
    exact absurd rfl notEmpty
  · have runs : Runs .start ts (Ended .alternatives 0 ts.length)
        (alternatives (4 * ts.length + 4) 0 ts) := (tracked _).alternatives awaits_item (le_refl _)
    cases read : alternatives (4 * ts.length + 4) 0 ts with
    | error e' =>
      rw [read] at h runs
      cases h
      exact runs
    | ok a =>
      rw [read] at h runs
      obtain ⟨c, moves, ended⟩ := runs
      dsimp only [bind, Except.bind] at h
      split at h
      · cases h
      · next stop =>
        cases h
        refine ⟨c, a.2, moves, ended.place, fun t ht => ?_, .inl ⟨_, rfl⟩⟩
        rw [ended.next t ht]
        exact goesOn_eq_none (ended.apart t ht) (absurd rfl) fun _ => head_ne stop t ht

/-- What is read can be passed over to the end. -/
lemma follow?_of_parse (h : parse source = .ok p) :
    Cursor.start.follow? ((Token.scan source).map (·.kind)) = some .finish := by
  obtain ⟨n, us, hn, e, d⟩ := parse_eq_ok.mp h
  obtain ⟨c, within, behind⟩ : Cursor.start.Passes us 0 :=
    d.passes Cursor.asks_item (by rwa [Nat.zero_add])
  rw [e, Cursor.follow?_append within]
  exact Cursor.follow?_cons (behind.next? (by decide))

/-- What can be passed over to the end is read. -/
lemma exists_parse_of_follow? (h : Cursor.start.follow? ((Token.scan source).map (·.kind)) =
    some .finish) : ∃ p, parse source = .ok p := by
  cases read : parse source with
  | ok p => exact ⟨p, rfl⟩
  | error e =>
    exfalso
    by_cases notEmpty : e = .emptyPattern
    · subst notEmpty
      obtain ⟨s, rest, scanned⟩ := ofTokens_eq_emptyPattern_iff.mp read
      rw [scanned] at h
      cases h
    · obtain ⟨c, rest, ⟨us, scanned, moves⟩, place, refused, -⟩ := fails_of_ofTokens read notEmpty
      rw [scanned, List.map_append, Cursor.follow?_append moves] at h
      cases rest with
      | nil =>
        cases h
        exact place rfl
      | cons t rest =>
        obtain ⟨c', next, -⟩ := Cursor.exists_next?_of_cons h
        cases (refused t rfl).symm.trans next

/-- There is a token wherever the cursor comes to before the end. -/
lemma Moves.exists_token (h : Moves .start (Token.scan source) c rest) (place : c.place ≠ .ended) :
    ∃ t after, rest = t :: after := by
  obtain ⟨us, scanned, moves⟩ := h
  cases rest with
  | cons t after => exact ⟨t, after, rfl⟩
  | nil =>
    obtain ⟨ks, lexemes, -⟩ := Token.exists_lexemes source.toList
    have lexemes : (Token.scan source).map (·.kind) = ks ++ [.stop] := lexemes
    rw [scanned, List.append_nil] at lexemes
    have stop : TokenKind.stop ∈ us.map (·.kind) := by
      rw [lexemes]
      exact List.mem_append_right _ (List.mem_singleton_self _)
    exact absurd rfl (Cursor.ne_of_follow? moves place _ stop).1

/-- Tokens that the cursor passes are the first of some text that is read. -/
lemma exists_completion (h : Cursor.start.follow? (us.map (·.kind)) = some c)
    (scanned : Token.scan source = us ++ rest) (place : c.place ≠ .ended) :
    ∃ source' p, parse source' = .ok p ∧ us <+: Token.scan source' := by
  have proper : ∀ t ∈ us, t.kind ≠ .stop ∧ t.kind ≠ .bad .unterminatedString := by
    intro t ht
    obtain ⟨stop, bad⟩ := Cursor.ne_of_follow? h place t.kind (List.mem_map_of_mem ht)
    exact ⟨stop, bad _⟩
  obtain ⟨front, -, completed⟩ := Token.exists_front scanned proper
  obtain ⟨more, scanned', kinds⟩ := completed c.closing
  have scanned' : Token.scan (.ofList (front ++ ' ' :: c.closing)) = us ++ more := by
    rw [Token.scan, String.toList_ofList]
    exact scanned'
  obtain ⟨p, read⟩ : ∃ p, parse (.ofList (front ++ ' ' :: c.closing)) = .ok p := by
    apply exists_parse_of_follow?
    rw [scanned', List.map_append, Cursor.follow?_append h, kinds]
    exact Cursor.follow?_closing place
  exact ⟨_, p, read, more, scanned'.symm⟩

lemma span?_atToken {expected : Expected} :
    (ParseError.atToken expected (t :: rest)).span? = some t.span := by
  rw [ParseError.atToken]
  split <;> rfl

/-- An error is about the first token that cannot stand where it does: the tokens before it are the
first of some text that is read, and no text that is read has its token after them. This holds of the
end of the text too, which is a token of its own. The error about groups nesting too deep is about the
parenthesis before. -/
theorem parse_error_is_first (read : parse source = .error e) (notEmpty : e ≠ .emptyPattern)
    (shallow : ∀ s, e ≠ .tooDeep s) :
    ∃ before t after expected, Token.scan source = before ++ t :: after ∧
      e = .atToken expected (t :: after) ∧ e.span? = some t.span ∧
      (∃ source' p, parse source' = .ok p ∧ before <+: Token.scan source') ∧
      ∀ source' p, parse source' = .ok p →
        ¬ (before ++ [t]).map (·.kind) <+: (Token.scan source').map (·.kind) := by
  obtain ⟨c, rest, moves, place, refused, about⟩ := fails_of_ofTokens read notEmpty
  obtain ⟨t, after, rfl⟩ := moves.exists_token place
  obtain ⟨before, scanned, passed⟩ := moves
  obtain ⟨expected, rfl⟩ | ⟨s, deep⟩ := about
  · refine ⟨before, t, after, expected, scanned, rfl, span?_atToken,
      exists_completion passed scanned place, ?_⟩
    rintro source' p read' ⟨more, scanned'⟩
    have whole := follow?_of_parse read'
    rw [← scanned', List.map_append, List.append_assoc] at whole
    cases (Cursor.follow?_eq_none passed (refused t rfl)).symm.trans whole
  · exact absurd deep (shallow s)

theorem parse_error_after_field :
    parse "(A, B\x7bk\x7d" = .error (.unexpectedToken .colon .closeBrace ⟨7, 8⟩) ∧
      ∃ before t after expected, Token.scan "(A, B\x7bk\x7d" = before ++ t :: after ∧
        ParseError.unexpectedToken .colon .closeBrace ⟨7, 8⟩ = .atToken expected (t :: after) ∧
        some ⟨7, 8⟩ = some t.span ∧
        (∃ source' p, parse source' = .ok p ∧ before <+: Token.scan source') ∧
        ∀ source' p, parse source' = .ok p →
          ¬ (before ++ [t]).map (·.kind) <+: (Token.scan source').map (·.kind) := by
  have read : parse "(A, B\x7bk\x7d" = .error (.unexpectedToken .colon .closeBrace ⟨7, 8⟩) := by
    cbv
  refine ⟨read, parse_error_is_first read ?_ fun s => ?_⟩
  · rintro ⟨⟩
  · rintro ⟨⟩

end Texts

end Interleaving.Pattern
