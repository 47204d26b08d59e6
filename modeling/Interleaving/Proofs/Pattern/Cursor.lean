import Mathlib
import Interleaving.Pattern.Parse
import Interleaving.Proofs.Pattern.Grammar
import Interleaving.Proofs.Pattern.Tokens

/-!
# What may come next

After some tokens of a pattern it depends only on the number of open groups and on what the last tokens
were which token may come next: `Cursor` is what there is to know, and `Cursor.next?` moves it over one
token. Whatever the grammar derives can be passed over (`Pattern.Derives.passes`), and from every cursor
but the last a text leads to the end (`Cursor.follow?_closing`).
-/

namespace Interleaving
open Token

namespace Pattern

/-- Where the tokens of a pattern may be left off. -/
inductive Place where
  /-- An item has to come. -/
  | item
  /-- A group has been opened, which may be empty. -/
  | opened
  /-- The name of an event was the last token. -/
  | named
  /-- An item is complete. -/
  | done
  /-- The brace of an event's conditions has been opened. -/
  | braced
  /-- The name of a field has to come. -/
  | field
  /-- The name of a field was the last token. -/
  | colon
  /-- The value of a field has to come. -/
  | value
  /-- The value of a field was the last token. -/
  | valued
  /-- The text is over. -/
  | ended
deriving DecidableEq

/-- What the tokens that have been read tell about those to come. -/
structure Cursor where
  /-- The number of groups around the place, without one that has just been opened. -/
  depth : Nat
  place : Place

namespace Cursor

/-- Moves over the first token of an item. -/
def begins (depth : Nat) : TokenKind → Option Cursor
  | .ident _ => some ⟨depth, .named⟩
  | .dot => some ⟨depth, .done⟩
  | .openParen => some ⟨depth, .opened⟩
  | _ => none

/-- Moves over a token that stands behind an item. -/
def goesOn (depth : Nat) : TokenKind → Option Cursor
  | .plus | .question | .star => some ⟨depth, .done⟩
  | .comma | .bar => some ⟨depth, .item⟩
  | .closeParen => if depth = 0 then none else some ⟨depth - 1, .done⟩
  | .stop => if depth = 0 then some ⟨0, .ended⟩ else none
  | kind => begins depth kind

/-- Moves over a token, if it may come. -/
def next? : Cursor → TokenKind → Option Cursor
  | ⟨depth, .item⟩, kind => begins depth kind
  | ⟨depth, .opened⟩, kind =>
    if kind = .closeParen then some ⟨depth, .done⟩
    else if depth < maxNesting then begins (depth + 1) kind else none
  | ⟨depth, .named⟩, kind =>
    if kind = .openBrace then some ⟨depth, .braced⟩ else goesOn depth kind
  | ⟨depth, .done⟩, kind => goesOn depth kind
  | ⟨depth, .braced⟩, .closeBrace => some ⟨depth, .done⟩
  | ⟨depth, .braced⟩, .ident _ => some ⟨depth, .colon⟩
  | ⟨depth, .field⟩, .ident _ => some ⟨depth, .colon⟩
  | ⟨depth, .colon⟩, .colon => some ⟨depth, .value⟩
  | ⟨depth, .value⟩, .str _ => some ⟨depth, .valued⟩
  | ⟨depth, .value⟩, .star => some ⟨depth, .valued⟩
  | ⟨depth, .valued⟩, .comma => some ⟨depth, .field⟩
  | ⟨depth, .valued⟩, .closeBrace => some ⟨depth, .done⟩
  | _, _ => none

/-- Moves over tokens one after the other. -/
def follow? (c : Cursor) (us : List TokenKind) : Option Cursor := us.foldlM next? c

/-- Before the first token of a text. -/
def start : Cursor := ⟨0, .item⟩

/-- After the end of a text. -/
def finish : Cursor := ⟨0, .ended⟩

variable {c c' c'' : Cursor} {us vs : List TokenKind} {kind : TokenKind} {depth : Nat}

section Moving

lemma follow?_cons (h : c.next? kind = some c') : c.follow? (kind :: us) = c'.follow? us := by
  rw [follow?, List.foldlM_cons, h]
  rfl

lemma follow?_append (h : c.follow? us = some c') : c.follow? (us ++ vs) = c'.follow? vs := by
  rw [follow?, List.foldlM_append]
  exact congrArg (· >>= _) h

/-- Tokens that have been passed over were no hindrance on the way. -/
lemma exists_follow?_of_append (h : c.follow? (us ++ vs) = some c'') :
    ∃ c', c.follow? us = some c' ∧ c'.follow? vs = some c'' := by
  rw [follow?, List.foldlM_append] at h
  exact Option.bind_eq_some_iff.mp h

lemma follow?_eq_none (h : c.follow? us = some c') (stuck : c'.next? kind = none) :
    c.follow? (us ++ kind :: vs) = none := by
  rw [follow?_append h, follow?, List.foldlM_cons, stuck]
  rfl

lemma exists_next?_of_cons (h : c.follow? (kind :: us) = some c'') :
    ∃ c', c.next? kind = some c' ∧ c'.follow? us = some c'' := by
  rw [follow?, List.foldlM_cons] at h
  exact Option.bind_eq_some_iff.mp h

lemma next?_bad {error : LexicalError} : c.next? (.bad error) = none := by
  obtain ⟨depth, place⟩ := c
  cases place
  case opened => simp [next?, begins]
  all_goals rfl

/-- Only the end of the text leads past it, and nothing comes after. -/
lemma next?_stop (h : c.next? .stop = some c') : c' = finish := by
  obtain ⟨depth, place⟩ := c
  cases place
  case named | done =>
    all_goals
      simp only [next?, goesOn, reduceCtorEq, if_false] at h
      split at h
      · exact (Option.some.inj h).symm
      · cases h
  all_goals simp [next?, begins] at h

/-- What has been passed before the end is neither the end nor text that is no token. -/
lemma ne_of_follow? (h : c.follow? us = some c') (place : c'.place ≠ .ended) :
    ∀ kind ∈ us, kind ≠ .stop ∧ ∀ error, kind ≠ .bad error := by
  intro kind mem
  obtain ⟨vs, ws, rfl⟩ := List.append_of_mem mem
  obtain ⟨c₁, -, later⟩ := exists_follow?_of_append h
  obtain ⟨c₂, next, last⟩ := exists_next?_of_cons later
  constructor
  · rintro rfl
    obtain rfl := next?_stop next
    cases ws with
    | nil =>
      cases last
      exact place rfl
    | cons => cases last
  · rintro error rfl
    rw [next?_bad] at next
    cases next

end Moving

section Items

/-- An item may come, in so many groups. -/
def Asks (c : Cursor) (depth : Nat) : Prop :=
  ∀ kind, beginsItem kind = true → c.next? kind = begins depth kind

/-- An item is complete in so many groups, if nothing more is added to it. -/
structure IsBehind (c : Cursor) (depth : Nat) : Prop where
  depth : c.depth = depth
  place : c.place = .named ∨ c.place = .done

lemma asks_item : Asks ⟨depth, .item⟩ depth := fun _ _ => rfl

lemma asks_opened (h : depth < maxNesting) : Asks ⟨depth, .opened⟩ (depth + 1) := by
  intro kind begins
  cases kind
  case closeParen => cases begins
  all_goals simp [next?, h]

lemma isBehind_named : IsBehind ⟨depth, .named⟩ depth := ⟨rfl, .inl rfl⟩

lemma isBehind_done : IsBehind ⟨depth, .done⟩ depth := ⟨rfl, .inr rfl⟩

lemma IsBehind.next? (h : c.IsBehind depth) (brace : kind ≠ .openBrace) :
    c.next? kind = goesOn depth kind := by
  obtain ⟨_, place⟩ := c
  obtain ⟨rfl, rfl | rfl⟩ := h
  · exact if_neg brace
  · rfl

lemma IsBehind.asks (h : c.IsBehind depth) : c.Asks depth := by
  intro kind begins
  rw [h.next?]
  · cases kind
    case ident => rfl
    case dot => rfl
    case openParen => rfl
    all_goals cases begins
  · rintro rfl
    cases begins

/-- The cursor comes over the tokens to the end of an item in so many groups. -/
def Passes (c : Cursor) (us : List TokenKind) (depth : Nat) : Prop :=
  ∃ c', c.follow? us = some c' ∧ c'.IsBehind depth

lemma Passes.concat (h : c.Passes us depth) (sign : goesOn depth kind = some ⟨depth, .done⟩)
    (brace : kind ≠ .openBrace) : c.Passes (us ++ [kind]) depth := by
  obtain ⟨c', inner, behind⟩ := h
  refine ⟨⟨depth, .done⟩, ?_, isBehind_done⟩
  rw [follow?_append inner]
  exact follow?_cons (by rw [behind.next? brace, sign])

lemma Passes.append (h : c.Passes us depth)
    (h' : ∀ {c' : Cursor}, c'.Asks depth → c'.Passes vs depth) : c.Passes (us ++ vs) depth := by
  obtain ⟨c', inner, behind⟩ := h
  obtain ⟨c'', inner', behind'⟩ := h' behind.asks
  exact ⟨c'', by rw [follow?_append inner, inner'], behind'⟩

lemma Passes.append_cons (h : c.Passes us depth)
    (sign : goesOn depth kind = some ⟨depth, .item⟩) (brace : kind ≠ .openBrace)
    (h' : ∀ {c' : Cursor}, c'.Asks depth → c'.Passes vs depth) :
    c.Passes (us ++ kind :: vs) depth := by
  obtain ⟨c', inner, behind⟩ := h
  obtain ⟨c'', inner', behind'⟩ := h' asks_item
  refine ⟨c'', ?_, behind'⟩
  rw [follow?_append inner, follow?_cons (by rw [behind.next? brace, sign]), inner']

end Items

end Cursor

section Grammar
open Cursor

variable {c : Cursor} {us : List TokenKind} {cs : List (String × String)} {depth n : Nat}

lemma Value.next? {kind : TokenKind} {v : String} (h : Value kind v) :
    Cursor.next? ⟨depth, .value⟩ kind = some ⟨depth, .valued⟩ := by
  cases h with
  | quoted => rfl
  | any => rfl

lemma Conditions.follow? (h : Conditions us cs) {place : Place}
    (asks : ∀ f, Cursor.next? ⟨depth, place⟩ (.ident f) = some ⟨depth, .colon⟩) :
    Cursor.follow? ⟨depth, place⟩ us = some ⟨depth, .valued⟩ := by
  induction h generalizing place with
  | @last f _ _ hv =>
    rw [follow?_cons (asks f), follow?_cons rfl, follow?_cons hv.next?]
    rfl
  | @more f _ _ _ _ hv _ ih =>
    rw [follow?_cons (asks f), follow?_cons rfl, follow?_cons hv.next?, follow?_cons rfl]
    exact ih fun _ => rfl

lemma Braces.passes (h : Braces us cs) : Cursor.Passes ⟨depth, .named⟩ us depth := by
  cases h with
  | none => exact ⟨_, rfl, isBehind_named⟩
  | empty => exact ⟨_, rfl, isBehind_done⟩
  | some h =>
    refine ⟨⟨depth, .done⟩, ?_, isBehind_done⟩
    rw [follow?_cons rfl, follow?_append (h.follow? fun _ => rfl)]
    rfl

/-- A phrase may come where an item is asked for, if there is room for its groups. -/
lemma Derives.passes {k : Phrase} {p : Pattern} (h : Derives k n us p) (asks : c.Asks depth)
    (shallow : depth + n ≤ maxNesting) : c.Passes us depth := by
  induction h generalizing c depth with
  | sequence _ ih => exact ih asks shallow
  | repeated _ ih => exact ih asks shallow
  | item _ ih => exact ih asks shallow
  | bar _ _ ih ih' =>
    exact (ih asks (by omega)).append_cons rfl (by decide) fun asks => ih' asks (by omega)
  | comma _ _ ih ih' =>
    exact (ih asks (by omega)).append_cons rfl (by decide) fun asks => ih' asks (by omega)
  | next _ _ ih ih' => exact (ih asks (by omega)).append fun asks => ih' asks (by omega)
  | plus _ ih => exact (ih asks shallow).concat rfl (by decide)
  | question _ ih => exact (ih asks shallow).concat rfl (by decide)
  | star _ ih => exact (ih asks shallow).concat rfl (by decide)
  | event h =>
    obtain ⟨c', inner, behind⟩ : Cursor.Passes ⟨depth, .named⟩ _ depth := h.passes
    exact ⟨c', by rw [follow?_cons (asks _ rfl), inner], behind⟩
  | any => exact ⟨⟨depth, .done⟩, follow?_cons (asks _ rfl), isBehind_done⟩
  | empty =>
    refine ⟨⟨depth, .done⟩, ?_, isBehind_done⟩
    rw [follow?_cons (asks _ rfl)]
    rfl
  | group _ ih =>
    have within : Asks ⟨depth, .opened⟩ (depth + 1) := asks_opened (by omega)
    obtain ⟨c', inner, behind⟩ := ih within (by omega)
    refine ⟨⟨depth, .done⟩, ?_, isBehind_done⟩
    rw [follow?_cons (asks _ rfl), follow?_append inner]
    exact follow?_cons (behind.next? (by decide))

end Grammar

namespace Cursor

section Closing

/-- What a place lacks to be the end of an item. -/
def missing : Place → List Char
  | .item => ['A']
  | .opened => [')']
  | .named | .done | .ended => []
  | .braced | .valued => ['\x7d']
  | .field => ['A', ':', '*', '\x7d']
  | .colon => [':', '*', '\x7d']
  | .value => ['*', '\x7d']

/-- A text that makes a pattern of what stands before the cursor. -/
def closing (c : Cursor) : List Char := missing c.place ++ List.replicate c.depth ')'

variable {c : Cursor} {depth : Nat} {cs : List Char}

lemma endsName_closeParens : EndsName (List.replicate depth ')') := by
  cases depth with
  | zero => exact nofun
  | succ depth => exact endsName_cons (by decide)

lemma lexemes_letter (ends : EndsName cs) : lexemes ('A' :: cs) = .ident "A" :: lexemes cs := by
  have name : IsName "A" := ⟨'A', [], by decide, by decide, nofun⟩
  exact lexemes_name name ends

lemma follow?_closeParens (h : c.IsBehind depth) :
    c.follow? (lexemes (List.replicate depth ')')) = some finish := by
  induction depth generalizing c with
  | zero =>
    rw [List.replicate_zero, lexemes_nil]
    exact follow?_cons (h.next? (by decide))
  | succ depth ih =>
    rw [List.replicate_succ, lexemes_sign rfl, follow?_cons (h.next? (by decide))]
    exact ih isBehind_done

/-- Every cursor before the end can come to it. -/
lemma follow?_closing (h : c.place ≠ .ended) : c.follow? (lexemes c.closing) = some finish := by
  obtain ⟨depth, place⟩ := c
  have behind : follow? ⟨depth, .done⟩ (lexemes (List.replicate depth ')')) = some finish :=
    follow?_closeParens isBehind_done
  have braced : lexemes ('\x7d' :: List.replicate depth ')') =
      .closeBrace :: lexemes (List.replicate depth ')') := lexemes_sign rfl
  have value : lexemes ('*' :: '\x7d' :: List.replicate depth ')') =
      .star :: .closeBrace :: lexemes (List.replicate depth ')') := by
    rw [lexemes_sign rfl, braced]
  have colon : lexemes (':' :: '*' :: '\x7d' :: List.replicate depth ')') =
      .colon :: .star :: .closeBrace :: lexemes (List.replicate depth ')') := by
    rw [lexemes_sign rfl, value]
  rw [closing]
  cases place with
  | item =>
    show follow? _ (lexemes ('A' :: List.replicate depth ')')) = _
    rw [lexemes_letter endsName_closeParens, follow?_cons rfl]
    exact follow?_closeParens isBehind_named
  | opened =>
    show follow? _ (lexemes (')' :: List.replicate depth ')')) = _
    rw [lexemes_sign rfl, follow?_cons rfl]
    exact behind
  | named => exact follow?_closeParens isBehind_named
  | done => exact behind
  | braced =>
    exact (congrArg _ braced).trans behind
  | field =>
    show follow? _ (lexemes ('A' :: ':' :: '*' :: '\x7d' :: List.replicate depth ')')) = _
    rw [lexemes_letter (endsName_cons (by decide)), colon]
    exact behind
  | colon => exact (congrArg _ colon).trans behind
  | value => exact (congrArg _ value).trans behind
  | valued => exact (congrArg _ braced).trans behind
  | ended => exact absurd rfl h

end Closing

end Cursor

end Pattern

end Interleaving
