import Mathlib.Data.List.TakeWhile
import Mathlib.Tactic.Common
import Interleaving.Pattern.Token

/-!
# The tokens of a text

`Token.lexemes` are the kinds of a text's tokens, whatever the places they stand at. They are cut
off the text one after another, blanks between them are passed over, and only the last of them is
the end of the text.
-/

namespace Interleaving

namespace Text

/-- The numbers that a table puts into its class, if each beginning in it has an end. -/
def numbers : List Nat → List Nat
  | first :: stop :: bounds => List.range' first (stop - first) ++ numbers bounds
  | _ => []

lemma mem_numbers {n : Nat} {bounds : List Nat} (even : bounds.length % 2 = 0)
    (h : withinBounds n false bounds = true) : n ∈ numbers bounds := by
  fun_induction numbers bounds with
  | case1 first stop bounds ih =>
    simp only [withinBounds] at h
    rw [List.mem_append, List.mem_range'_1]
    split at h
    · cases h
    · split at h
      · exact .inl (by omega)
      · exact .inr (ih (by simp only [List.length_cons] at even; omega) h)
  | case2 bounds not =>
    match bounds with
    | [] => cases h
    | [_] => cases even
    | _ :: _ :: _ => exact absurd rfl (not _ _ _)

end Text

namespace Token

variable {c : Char} {cs rest : List Char} {pos : Nat} {kind : TokenKind}

/-- A name: a letter or a low line, and then letters, digits and low lines. -/
def IsName (name : String) : Prop :=
  ∃ c cs, name.toList = c :: cs ∧ isNameStart c = true ∧ ∀ d ∈ cs, isNameRest d = true

/-- The kinds of the tokens of a text. -/
def lexemes (cs : List Char) : List TokenKind := (scanFrom 0 cs).map (·.kind)

lemma map_kind_scanFrom : (scanFrom pos cs).map (·.kind) = lexemes cs := by
  rw [lexemes]
  generalize 0 = pos'
  fun_induction scanFrom pos cs generalizing pos' with
  | case1 pos cs start h =>
    unfold scanFrom
    split
    · rfl
    · next h' => cases h.symm.trans h'
  | case2 pos cs start c rest h token stop ih =>
    conv_rhs => unfold scanFrom
    split
    · next h' => cases h.symm.trans h'
    · next c' rest' h' =>
      cases h.symm.trans h'
      rw [List.map_cons, List.map_cons, ih]

lemma lexemes_eq (cs : List Char) : lexemes cs =
    match cs.dropWhile Text.isBlank with
    | [] => [.stop]
    | c :: rest => (cut c rest).kind :: lexemes (cut c rest).rest := by
  rw [lexemes, scanFrom]
  split
  · next h =>
    rw [h]
    rfl
  · next c rest h =>
    rw [h, List.map_cons, map_kind_scanFrom]

lemma lexemes_nil : lexemes [] = [.stop] := lexemes_eq []

lemma lexemes_blank (h : Text.isBlank c = true) : lexemes (c :: cs) = lexemes cs := by
  rw [lexemes_eq, List.dropWhile_cons_of_pos h, ← lexemes_eq]

lemma lexemes_cons (h : Text.isBlank c = false) :
    lexemes (c :: cs) = (cut c cs).kind :: lexemes (cut c cs).rest := by
  rw [lexemes_eq, List.dropWhile_cons_of_neg (Bool.eq_false_iff.mp h)]

section Characters

lemma isBlank_of_isNameStart (h : isNameStart c = true) : Text.isBlank c = false := by
  rw [Bool.eq_false_iff]
  intro blank
  -- The blanks are few, so they can be looked up one by one in the table of the letters.
  have apart : ∀ n ∈ Text.numbers Text.blankBounds,
      Text.withinBounds n false Text.alphabeticBounds = false ∧ n ≠ 0x5f := by
    decide +kernel
  obtain ⟨notLetter, notLine⟩ := apart _ (Text.mem_numbers (by decide) blank)
  obtain h | h := (Bool.or_eq_true _ _).mp h
  · exact absurd (notLetter.symm.trans h) Bool.false_ne_true
  · rw [eq_of_beq h] at notLine
    exact notLine rfl

lemma isBlank_of_sign (h : sign? c = some kind) : Text.isBlank c = false := by
  unfold sign? at h
  split at h
  case h_12 => cases h
  all_goals decide

lemma sign?_of_isNameStart (h : isNameStart c = true) : sign? c = none := by
  unfold sign?
  split
  case h_12 => rfl
  all_goals exact absurd h (by decide)

lemma lexemes_sign (h : sign? c = some kind) : lexemes (c :: cs) = kind :: lexemes cs := by
  rw [lexemes_cons (isBlank_of_sign h), cut, h]

end Characters

section Names

/-- A text does not go on a name that stands before it. -/
def EndsName (rest : List Char) : Prop := ∀ c ∈ rest.head?, isNameRest c = false

lemma endsName_cons (h : isNameRest c = false) : EndsName (c :: rest) := by
  rintro _ ⟨⟩
  exact h

lemma EndsName.takeWhile (h : EndsName rest) : rest.takeWhile isNameRest = [] := by
  cases rest with
  | nil => rfl
  | cons c rest => exact List.takeWhile_cons_of_neg (Bool.eq_false_iff.mp (h c rfl))

lemma EndsName.dropWhile (h : EndsName rest) : rest.dropWhile isNameRest = rest := by
  cases rest with
  | nil => rfl
  | cons c rest => exact List.dropWhile_cons_of_neg (Bool.eq_false_iff.mp (h c rfl))

lemma cut_name (h : isNameStart c = true) : cut c cs =
    ⟨.ident (.ofList (c :: cs.takeWhile isNameRest)), c :: cs.takeWhile isNameRest,
      cs.dropWhile isNameRest⟩ := by
  have quote : c ≠ '"' := by
    rintro rfl
    exact absurd h (by decide)
  rw [cut, sign?_of_isNameStart h]
  simp only [if_neg quote, if_pos h]

/-- A name is one token, if what follows does not go on it. -/
lemma lexemes_name {name : String} (h : IsName name) (ends : EndsName rest) :
    lexemes (name.toList ++ rest) = .ident name :: lexemes rest := by
  obtain ⟨c, cs, e, hc, hcs⟩ := h
  rw [e, List.cons_append, lexemes_cons (isBlank_of_isNameStart hc), cut_name hc,
    List.takeWhile_append_of_pos hcs, List.dropWhile_append_of_pos hcs, ends.takeWhile,
    ends.dropWhile, List.append_nil, ← e, String.ofList_toList]

end Names

section Quotes

/-- Neither a quote nor a backslash. -/
def IsPlain (c : Char) : Prop := c ≠ '"' ∧ c ≠ '\\'

lemma isPlain_of_mem_toDigits {n : Nat} (h : c ∈ Nat.toDigits 16 n) : IsPlain c := by
  have digit : ∀ k < 16, k.digitChar ≠ '"' ∧ k.digitChar ≠ '\\' := by decide
  induction n using Nat.strongRecOn with
  | ind n ih =>
    rw [Nat.toDigits_eq_if (by decide)] at h
    split at h
    · next lt =>
      obtain rfl := List.mem_singleton.mp h
      exact digit n lt
    · next le =>
      obtain h | h := List.mem_append.mp h
      · exact ih (n / 16) (by omega) h
      · obtain rfl := List.mem_singleton.mp h
        exact digit (n % 16) (Nat.mod_lt _ (by decide))

/-- A written character is the character itself or a backslash with what it stands for. -/
lemma escape_cases (c : Char) : Text.escape '"' c = [c] ∧ IsPlain c ∨
    ∃ d ds, Text.escape '"' c = '\\' :: d :: ds ∧ ∀ x ∈ ds, IsPlain x := by
  unfold Text.escape
  split_ifs with _ _ _ _ special
  · exact .inr ⟨_, _, rfl, nofun⟩
  · exact .inr ⟨_, _, rfl, nofun⟩
  · exact .inr ⟨_, _, rfl, nofun⟩
  · exact .inr ⟨_, _, rfl, nofun⟩
  · exact .inr ⟨_, _, rfl, nofun⟩
  · refine .inr ⟨_, _, rfl, fun x hx => ?_⟩
    obtain hx | hx := List.mem_append.mp hx
    · obtain rfl | hx := List.mem_cons.mp hx
      · exact ⟨by decide, by decide⟩
      · exact isPlain_of_mem_toDigits hx
    · obtain rfl := List.mem_singleton.mp hx
      exact ⟨by decide, by decide⟩
  · simp only [Bool.or_eq_true, decide_eq_true_eq, not_or] at special
    exact .inl ⟨rfl, special.2, special.1⟩

/-- What the written form of a character spells when it is read: the backslash is dropped. -/
def respelled (c : Char) : List Char :=
  match Text.escape '"' c with
  | '\\' :: cs => cs
  | cs => cs

lemma respelled_of_plain (h : Text.escape '"' c = [c]) (plain : IsPlain c) :
    respelled c = [c] := by
  rw [respelled, h]
  split
  · next e => exact absurd (List.cons.inj e).1 plain.2
  · rfl

lemma respelled_of_backslash (h : Text.escape '"' c = '\\' :: cs) : respelled c = cs := by
  rw [respelled, h]
  rfl

lemma cutString_plain (h : IsPlain c) : (cutString (c :: cs)).2 =
    ((cutString cs).2.1.map (c :: ·), (cutString cs).2.2) := by
  rw [cutString]
  · exact h.1
  · exact fun _ _ e _ => h.2 e

lemma cutString_backslash : (cutString ('\\' :: c :: cs)).2 =
    ((cutString cs).2.1.map (c :: ·), (cutString cs).2.2) := by
  rw [cutString]

lemma cutString_append {ds : List Char} (h : ∀ d ∈ ds, IsPlain d) : (cutString (ds ++ cs)).2 =
    ((cutString cs).2.1.map (ds ++ ·), (cutString cs).2.2) := by
  induction ds with
  | nil => simp
  | cons d ds ih =>
    rw [List.cons_append, cutString_plain (h d List.mem_cons_self),
      ih fun x hx => h x (List.mem_cons_of_mem _ hx), Option.map_map]
    rfl

lemma cutString_escape : (cutString (Text.escape '"' c ++ cs)).2 =
    ((cutString cs).2.1.map (respelled c ++ ·), (cutString cs).2.2) := by
  obtain ⟨e, plain⟩ | ⟨d, ds, e, plain⟩ := escape_cases c
  · rw [e, respelled_of_plain e plain]
    exact cutString_plain plain
  · rw [e, respelled_of_backslash e, List.cons_append, List.cons_append, cutString_backslash,
      cutString_append plain, Option.map_map]
    rfl

lemma cut_quote : cut '"' cs =
    ⟨match (cutString cs).2.1 with
      | some value => .str (.ofList value)
      | none => .bad .unterminatedString, '"' :: (cutString cs).1, (cutString cs).2.2⟩ := rfl

lemma cutString_quoted {v : List Char} :
    (cutString (v.flatMap (Text.escape '"') ++ '"' :: rest)).2 =
      (some (v.flatMap respelled), rest) := by
  induction v with
  | nil => rfl
  | cons c v ih =>
    rw [List.flatMap_cons, List.append_assoc, cutString_escape, ih]
    rfl

/-- A quoted text is one token, and its value is what the written forms of the characters spell. -/
lemma lexemes_quoted {v : List Char} : lexemes (Text.quotedChars v ++ rest) =
    .str (.ofList (v.flatMap respelled)) :: lexemes rest := by
  have e : Text.quotedChars v ++ rest = '"' :: (v.flatMap (Text.escape '"') ++ '"' :: rest) := by
    simp [Text.quotedChars]
  rw [e, lexemes_cons (by decide), cut_quote, cutString_quoted]

/-- The character is written as it is, or as an escaped quote or backslash. -/
def IsFaithful (c : Char) : Prop := Text.escape '"' c ∈ [[c], ['\\', '"'], ['\\', '\\']]

lemma respelled_eq_self_iff : respelled c = [c] ↔ IsFaithful c := by
  have which : IsFaithful c ↔ Text.escape '"' c = [c] ∨ Text.escape '"' c = ['\\', c] := by
    unfold IsFaithful Text.escape
    split_ifs <;> simp_all [or_comm]
  rw [which]
  obtain ⟨e, plain⟩ | ⟨d, ds, e, -⟩ := escape_cases c
  · exact ⟨fun _ => .inl e, fun _ => respelled_of_plain e plain⟩
  · rw [respelled_of_backslash e, e]
    constructor
    · intro h
      rw [h]
      exact .inr rfl
    · rintro (h | h)
      · cases h
      · exact (List.cons.inj h).2

/-- All characters are faithful but those that get a short escape of their own or their code point. -/
lemma isFaithful_iff :
    IsFaithful c ↔ c ∉ ['\x00', '\t', '\r', '\n'] ∧ Text.isHidden c = false := by
  have shown : Text.isHidden '"' = false ∧ Text.isHidden '\\' = false := by decide +kernel
  unfold IsFaithful Text.escape
  split_ifs with null tab back line special hidden
  · exact iff_of_false (by simp [null]) (by simp [null])
  · exact iff_of_false (by simp [tab]) (by simp [tab])
  · exact iff_of_false (by simp [back]) (by simp [back])
  · exact iff_of_false (by simp [line]) (by simp [line])
  · rw [Bool.or_eq_true, decide_eq_true_eq, decide_eq_true_eq] at special
    obtain rfl | rfl := special
    · exact iff_of_true (by simp) ⟨by decide, shown.2⟩
    · exact iff_of_true (by simp) ⟨by decide, shown.1⟩
  · exact iff_of_false (by simp) fun h => Bool.false_ne_true (h.2.symm.trans hidden)
  · exact iff_of_true List.mem_cons_self
      ⟨by simp [null, tab, back, line], Bool.eq_false_iff.mpr hidden⟩

/-- What the quoted form of a value is read as. -/
def reread (v : String) : String := .ofList (v.toList.flatMap respelled)

lemma one_le_length_respelled : 1 ≤ (respelled c).length := by
  obtain ⟨e, plain⟩ | ⟨d, ds, e, -⟩ := escape_cases c
  · rw [respelled_of_plain e plain]
    exact le_refl 1
  · rw [respelled_of_backslash e]
    exact Nat.le_add_left ..

lemma length_le_length_flatMap_respelled (cs : List Char) :
    cs.length ≤ (cs.flatMap respelled).length := by
  induction cs with
  | nil => exact le_refl 0
  | cons c cs ih =>
    have one := one_le_length_respelled (c := c)
    rw [List.flatMap_cons, List.length_append, List.length_cons]
    omega

lemma flatMap_respelled_eq_self_iff :
    cs.flatMap respelled = cs ↔ ∀ c ∈ cs, respelled c = [c] := by
  induction cs with
  | nil => exact ⟨fun _ => nofun, fun _ => rfl⟩
  | cons c cs ih =>
    rw [List.flatMap_cons, List.forall_mem_cons, ← ih]
    constructor
    · intro h
      have le := length_le_length_flatMap_respelled cs
      have one := one_le_length_respelled (c := c)
      have sum := congrArg List.length h
      rw [List.length_append, List.length_cons] at sum
      have same : respelled c ++ cs.flatMap respelled = [c] ++ cs := h
      exact List.append_inj same (by rw [List.length_singleton]; omega)
    · rintro ⟨e, e'⟩
      rw [e, e', List.singleton_append]

/-- A value is read as it was exactly if each of its characters is. -/
lemma reread_eq_self_iff {v : String} : reread v = v ↔ ∀ c ∈ v.toList, IsFaithful c := by
  rw [← String.toList_inj, reread, String.toList_ofList, flatMap_respelled_eq_self_iff]
  simp only [respelled_eq_self_iff]

end Quotes

section Ends

/-- The kinds of the tokens before the end of a text. -/
def IsCut : TokenKind → Prop
  | .stop => False
  | .ident name => IsName name
  | _ => True

lemma isCut_of_sign (h : sign? c = some kind) : IsCut kind := by
  unfold sign? at h
  split at h
  case h_12 => cases h
  all_goals
    cases h
    trivial

lemma isCut_cut : IsCut (cut c cs).kind := by
  cases h : sign? c with
  | some kind =>
    rw [cut, h]
    exact isCut_of_sign h
  | none =>
    rw [cut, h]
    by_cases quote : c = '"'
    · simp only [if_pos quote]
      cases (cutString cs).2.1 with
      | some value => trivial
      | none => trivial
    · simp only [if_neg quote]
      split
      · next start =>
        refine ⟨c, cs.takeWhile isNameRest, String.toList_ofList, start, fun d hd => ?_⟩
        exact List.all_eq_true.mp List.all_takeWhile d hd
      · trivial

/-- A text has one end, after all other tokens. -/
lemma exists_lexemes (cs : List Char) : ∃ ks, lexemes cs = ks ++ [.stop] ∧ ∀ k ∈ ks, IsCut k := by
  rw [lexemes]
  fun_induction scanFrom 0 cs with
  | case1 => exact ⟨[], rfl, nofun⟩
  | case2 pos cs start c rest h token stop ih =>
    obtain ⟨ks, e, cuts⟩ := ih
    refine ⟨token.kind :: ks, ?_, List.forall_mem_cons.mpr ⟨isCut_cut, cuts⟩⟩
    rw [List.map_cons, e]
    rfl

lemma head?_lexemes_eq_stop_iff :
    (lexemes cs).head? = some .stop ↔ ∀ c ∈ cs, Text.isBlank c = true := by
  rw [lexemes_eq, ← List.dropWhile_eq_nil_iff]
  split
  · next h => exact ⟨fun _ => h, fun _ => rfl⟩
  · next c rest h =>
    have isCut : IsCut (cut c rest).kind := isCut_cut
    rw [h]
    refine ⟨fun e => ?_, nofun⟩
    rw [Option.some.inj e] at isCut
    exact isCut.elim

end Ends

end Token

end Interleaving
