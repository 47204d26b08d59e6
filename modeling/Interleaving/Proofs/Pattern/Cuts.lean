import Mathlib.Data.List.TakeWhile
import Mathlib.Tactic.Common
import Interleaving.Proofs.Pattern.Tokens

/-!
# Texts cut short

A token depends on its own characters only, as long as what follows does not go on it: `Token.cut_append`.
So the tokens at the front of a text can be had with any other text after them
(`Token.exists_front`).
-/

namespace Interleaving.Token

variable {c : Char} {cs tail : List Char} {pos : Nat}

section Cutting

lemma cutString_append_rest (cs : List Char) : (cutString cs).1 ++ (cutString cs).2.2 = cs := by
  fun_induction cutString cs with
  | case1 => rfl
  | case2 => rfl
  | case3 c cs lexeme value rest e ih =>
    rw [e] at ih
    exact congrArg ('\\' :: c :: ·) ih
  | case4 c cs _ _ lexeme value rest e ih =>
    rw [e] at ih
    exact congrArg (c :: ·) ih

/-- A token is a character alone, a quoted text or a name. -/
lemma cut_cases (c : Char) :
    (∃ kind, ∀ cs, cut c cs = ⟨kind, [c], cs⟩) ∨ c = '"' ∨ isNameStart c = true := by
  cases sign : sign? c with
  | some kind =>
    refine .inl ⟨kind, fun cs => ?_⟩
    rw [cut, sign]
  | none =>
    by_cases quote : c = '"'
    · exact .inr (.inl quote)
    · cases start : isNameStart c with
      | true => exact .inr (.inr rfl)
      | false =>
        refine .inl ⟨.bad (.strayCharacter c), fun cs => ?_⟩
        simp [cut, sign, quote, start]

/-- A token is cut off the front of a text. -/
lemma cut_append_rest (c : Char) (cs : List Char) :
    ∃ lexeme, (cut c cs).lexeme = c :: lexeme ∧ lexeme ++ (cut c cs).rest = cs := by
  obtain ⟨kind, alone⟩ | rfl | start := cut_cases c
  · rw [alone]
    exact ⟨[], rfl, rfl⟩
  · rw [cut_quote]
    exact ⟨_, rfl, cutString_append_rest cs⟩
  · rw [cut_name start]
    exact ⟨_, rfl, List.takeWhile_append_dropWhile⟩

/-- A quote that is closed ends there, whatever follows; one that is not takes the whole text. -/
lemma cutString_lexeme_append (closed : tail ≠ [] → (cutString cs).2.1 ≠ none) :
    cutString ((cutString cs).1 ++ tail) = ((cutString cs).1, (cutString cs).2.1, tail) := by
  fun_induction cutString cs with
  | case1 =>
    by_cases h : tail = []
    · rw [h]
      rfl
    · exact absurd rfl (closed h)
  | case2 => rfl
  | case3 c cs lexeme value rest e ih =>
    rw [e] at ih
    simp only [ne_eq, Option.map_eq_none_iff] at closed
    simp only [List.cons_append, cutString, ih closed]
  | case4 c cs quote backslash lexeme value rest e ih =>
    rw [e] at ih
    simp only [ne_eq, Option.map_eq_none_iff] at closed
    rw [List.cons_append, cutString, ih closed]
    · exact quote
    · -- A backslash here was the last character, so that the quote is open and nothing follows.
      rintro d ds rfl next
      have last : cs = [] := by
        cases cs with
        | nil => rfl
        | cons d ds => exact absurd rfl (backslash d ds rfl)
      rw [last] at e
      cases e
      refine closed ?_ rfl
      rintro rfl
      cases next

/-- A token stays the same with another text after it, if that does not go on it. -/
lemma cut_append {lexeme : List Char} (h : (cut c cs).lexeme = c :: lexeme)
    (closed : tail ≠ [] → (cut c cs).kind ≠ .bad .unterminatedString)
    (ends : ∀ d ∈ tail.head?, d ∈ (cut c cs).rest.head? ∨ isNameRest d = false) :
    cut c (lexeme ++ tail) = ⟨(cut c cs).kind, c :: lexeme, tail⟩ := by
  obtain ⟨kind, alone⟩ | rfl | start := cut_cases c
  · rw [alone] at h ⊢
    cases h
    rw [List.nil_append, alone]
  · rw [cut_quote] at h closed ⊢
    obtain rfl := (List.cons.inj h).2
    have isClosed : tail ≠ [] → (cutString cs).2.1 ≠ none := by
      intro more unclosed
      exact closed more (by rw [unclosed])
    rw [cut_quote, cutString_lexeme_append isClosed]
  · rw [cut_name start] at h ends ⊢
    obtain rfl := (List.cons.inj h).2
    have parted : EndsName tail := by
      intro d hd
      obtain begins | other := ends d hd
      · have not := List.head?_dropWhile_not isNameRest cs
        rw [Option.mem_def.mp begins] at not
        exact not
      · exact other
    have all : ∀ d ∈ cs.takeWhile isNameRest, isNameRest d = true :=
      List.all_eq_true.mp List.all_takeWhile
    rw [cut_name start, List.takeWhile_append_of_pos all, List.dropWhile_append_of_pos all,
      parted.takeWhile, parted.dropWhile, List.append_nil]

end Cutting

section Scanning

/-- Blanks before a token belong to no token. -/
lemma scanFrom_blanks {blanks : List Char} (h : ∀ b ∈ blanks, Text.isBlank b = true)
    (token : Text.isBlank c = false) : scanFrom pos (blanks ++ c :: cs) =
      ⟨(cut c cs).kind, ⟨pos + byteLength blanks,
        pos + byteLength blanks + byteLength (cut c cs).lexeme⟩⟩ ::
      scanFrom (pos + byteLength blanks + byteLength (cut c cs).lexeme) (cut c cs).rest := by
  have notBlank : ¬ Text.isBlank c = true := Bool.eq_false_iff.mp token
  have before : (blanks ++ c :: cs).takeWhile Text.isBlank = blanks := by
    rw [List.takeWhile_append_of_pos h, List.takeWhile_cons_of_neg notBlank, List.append_nil]
  have after : (blanks ++ c :: cs).dropWhile Text.isBlank = c :: cs := by
    rw [List.dropWhile_append_of_pos h, List.dropWhile_cons_of_neg notBlank]
  rw [scanFrom, before]
  split
  · next e => cases after.symm.trans e
  · next e =>
    cases after.symm.trans e
    rfl

/-- The first token stays the same, in kind and place, with another text after it. -/
lemma scanFrom_append {blanks lexeme : List Char} (blank : ∀ b ∈ blanks, Text.isBlank b = true)
    (token : Text.isBlank c = false) (h : (cut c cs).lexeme = c :: lexeme)
    (closed : tail ≠ [] → (cut c cs).kind ≠ .bad .unterminatedString)
    (ends : ∀ d ∈ tail.head?, d ∈ (cut c cs).rest.head? ∨ isNameRest d = false) :
    scanFrom pos (blanks ++ c :: (lexeme ++ tail)) =
      ⟨(cut c cs).kind, ⟨pos + byteLength blanks,
        pos + byteLength blanks + byteLength (cut c cs).lexeme⟩⟩ ::
      scanFrom (pos + byteLength blanks + byteLength (cut c cs).lexeme) tail := by
  rw [scanFrom_blanks blank token, cut_append h closed ends, ← h]

/-- Blanks stand before the first character of a token. -/
lemma exists_blanks (h : ∃ c ∈ cs, Text.isBlank c = false) : ∃ blanks c rest,
    (∀ b ∈ blanks, Text.isBlank b = true) ∧ Text.isBlank c = false ∧ cs = blanks ++ c :: rest := by
  induction cs with
  | nil =>
    obtain ⟨_, hc, _⟩ := h
    cases hc
  | cons c cs ih =>
    cases blank : Text.isBlank c with
    | false => exact ⟨[], c, cs, nofun, blank, rfl⟩
    | true =>
      obtain ⟨d, hd, token⟩ := h
      obtain rfl | hd := List.mem_cons.mp hd
      · cases blank.symm.trans token
      · obtain ⟨blanks, d, rest, hb, token, rfl⟩ := ih ⟨d, hd, token⟩
        exact ⟨c :: blanks, d, rest, List.forall_mem_cons.mpr ⟨blank, hb⟩, token, rfl⟩

/-- Any other text may stand after the tokens at the front of a text. -/
lemma exists_front {before after : List Token} (h : scanFrom pos cs = before ++ after)
    (proper : ∀ t ∈ before, t.kind ≠ .stop ∧ t.kind ≠ .bad .unterminatedString) :
    ∃ front, front <+: cs ∧ ∀ tail, ∃ more,
      scanFrom pos (front ++ ' ' :: tail) = before ++ more ∧ more.map (·.kind) = lexemes tail := by
  induction before generalizing pos cs with
  | nil =>
    refine ⟨[], List.nil_prefix, fun tail => ⟨_, rfl, ?_⟩⟩
    rw [map_kind_scanFrom]
    exact lexemes_blank (by decide)
  | cons t before ih =>
    obtain ⟨ht, others⟩ := List.forall_mem_cons.mp proper
    have token : ∃ c ∈ cs, Text.isBlank c = false := by
      by_contra blank
      simp only [not_exists, not_and, Bool.not_eq_false] at blank
      have first : (lexemes cs).head? = some t.kind := by
        rw [← map_kind_scanFrom, h]
        rfl
      exact ht.1 (Option.some.inj (first.symm.trans (head?_lexemes_eq_stop_iff.mpr blank)))
    obtain ⟨blanks, c, rest, hb, hc, rfl⟩ := exists_blanks token
    rw [scanFrom_blanks hb hc, List.cons_append] at h
    obtain ⟨rfl, later⟩ := List.cons.inj h
    obtain ⟨lexeme, hl, hrest⟩ := cut_append_rest c rest
    obtain ⟨front, hfront, ih⟩ := ih later others
    refine ⟨blanks ++ c :: (lexeme ++ front), ?_, fun tail => ?_⟩
    · rw [List.prefix_append_right_inj, List.prefix_cons_inj, ← hrest,
        List.prefix_append_right_inj]
      exact hfront
    · obtain ⟨more, e, kinds⟩ := ih tail
      have ends : ∀ d ∈ (front ++ ' ' :: tail).head?,
          d ∈ (cut c rest).rest.head? ∨ isNameRest d = false := by
        intro d hd
        cases front with
        | nil =>
          cases hd
          exact .inr (by decide)
        | cons x front =>
          obtain ⟨back, e⟩ := hfront
          rw [← e]
          exact .inl hd
      refine ⟨more, ?_, kinds⟩
      rw [List.append_assoc, List.cons_append, List.append_assoc,
        scanFrom_append hb hc hl (fun _ => ht.2) ends, e]
      rfl

end Scanning

end Interleaving.Token
