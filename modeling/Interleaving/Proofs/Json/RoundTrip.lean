import Mathlib.Data.List.Basic
import Mathlib.Tactic.IntervalCases
import Interleaving.Json.Reader
import Interleaving.Json.Writer

/-!
# Written values are read back

A value that holds no number or string as it was written is read back from its text
(`parse?_pretty`). Each piece of the text is followed through the reader with any rest behind it:
first the characters of a string and the digits of a number, then values by induction on how they
are built. What can stand behind a number decides where it ends.
-/

namespace Interleaving.Json

/-- Values without a part that is kept as it was written. -/
inductive Plain : Json → Prop where
  | null : Plain null
  | bool (b : Bool) : Plain (bool b)
  | nat (n : Nat) : Plain (nat n)
  | str (s : String) : Plain (str s)
  | arr {items : List Json} (items_plain : ∀ v ∈ items, Plain v) : Plain (arr items)
  | obj {members : List (String × Json)} (members_plain : ∀ m ∈ members, Plain m.2) :
    Plain (obj members)

/-- What is undone item by item is undone for a list. -/
lemma mapM_map_eq_some {α β : Type} {f : β → Option α} {g : α → β} (undone : ∀ a, f (g a) = some a)
    (as : List α) : (as.map g).mapM f = some as := by
  have undone : f ∘ g = fun a => pure a := funext undone
  rw [List.mapM_map, undone, List.mapM_pure, List.map_id']
  rfl

variable {level outer depth n : Nat} {text cs ds rest : List Char} {c d : Char} {v : Json}

section Strings

lemma hexDigit?_digitChar (h : n < 16) : hexDigit? (Nat.digitChar n) = some n := by
  revert n
  decide

/-- The written form of a character is read as that character alone. -/
lemma stringUnits_escaped (c : Char) (text : List Char) :
    stringUnits (escaped c ++ text) =
      (stringUnits text).map fun (us, rest) => (c.toNat :: us, rest) := by
  unfold escaped
  split
  case h_8 not_quote not_backslash _ _ _ _ _ =>
    split
    · next control =>
      have high := hexDigit?_digitChar (n := c.toNat / 16) (by omega)
      have low := hexDigit?_digitChar (n := c.toNat % 16) (by omega)
      have zero : hexDigit? '0' = some 0 := rfl
      have joined : c.toNat / 16 * 16 + c.toNat % 16 = c.toNat := by omega
      cases read : stringUnits text <;>
        simp [stringUnits, hexUnit?, high, low, zero, joined, read]
    · next printed =>
      rw [List.singleton_append, stringUnits]
      · rw [guard, if_pos (by omega)]
        cases stringUnits text <;> rfl
      · exact not_quote
      · exact fun _ _ _ _ _ h _ => not_backslash h
      · exact fun _ _ h _ => not_backslash h
  all_goals cases read : stringUnits text <;> simp [stringUnits, shortEscape?, read]

lemma stringUnits_foldr_escaped (cs rest : List Char) :
    stringUnits (cs.foldr (fun c text => escaped c ++ text) ('"' :: rest)) =
      some (cs.map Char.toNat, rest) := by
  induction cs with
  | nil => rfl
  | cons c cs ih =>
    rw [List.foldr_cons, stringUnits_escaped, ih]
    rfl

/-- No character is half of a surrogate pair. -/
lemma not_isHalf_toNat (c : Char) : isHighHalf c.toNat = false ∧ isLowHalf c.toNat = false := by
  have valid : c.toNat < 0xd800 ∨ 0xdfff < c.toNat ∧ c.toNat < 0x110000 := c.valid
  simp only [isHighHalf, isLowHalf, Bool.and_eq_false_iff, decide_eq_false_iff_not]
  omega

lemma ofUnits?_map_toNat (cs : List Char) : ofUnits? (cs.map Char.toNat) = some cs := by
  induction cs with
  | nil => rfl
  | cons c cs ih =>
    obtain ⟨not_high, not_low⟩ := not_isHalf_toNat c
    cases cs with
    | nil => simp [ofUnits?, not_high, not_low, Char.ofNat_toNat]
    | cons d ds =>
      rw [List.map_cons, List.map_cons] at *
      simp [ofUnits?, not_high, not_low, ih, Char.ofNat_toNat]

/-- The text behind the opening quote of a written string. -/
lemma string_foldr_escaped (s : String) (rest : List Char) :
    string (s.toList.foldr (fun c text => escaped c ++ text) ('"' :: rest)) =
      some (some s, rest) := by
  rw [string, stringUnits_foldr_escaped, Option.map_some]
  dsimp only
  rw [ofUnits?_map_toNat, Option.map_some, String.ofList_toList]

end Strings

section Numbers

/-- What stands behind a written value: nothing, a comma or a line end. -/
inductive Follows : List Char → Prop where
  | nothing : Follows []
  | comma (text : List Char) : Follows (',' :: text)
  | lineEnd (text : List Char) : Follows ('\n' :: text)

lemma isDigit_of_mem_toDigits (h : c ∈ Nat.toDigits 10 n) : c.isDigit = true :=
  Nat.isDigit_of_mem_toDigits (by decide) (by decide) h

lemma ne_of_isDigit (digit : d.isDigit = true) (other : c.isDigit = false) : d ≠ c := by
  rintro rfl
  rw [other] at digit
  cases digit

lemma exists_digit_cons (n : Nat) :
    ∃ d ds, Nat.toDigits 10 n = d :: ds ∧ d.isDigit = true := by
  cases eq : Nat.toDigits 10 n with
  | nil => exact absurd eq Nat.toDigits_ne_nil
  | cons d ds => exact ⟨d, ds, rfl, isDigit_of_mem_toDigits (eq ▸ List.mem_cons_self)⟩

lemma digits_toDigits (h : Follows rest) :
    digits (Nat.toDigits 10 n ++ rest) = some (Nat.toDigits 10 n, rest) := by
  have digit : ∀ c ∈ Nat.toDigits 10 n, c.isDigit = true := fun _ => isDigit_of_mem_toDigits
  have ends : rest.takeWhile Char.isDigit = [] ∧ rest.dropWhile Char.isDigit = rest := by
    cases h <;> exact ⟨rfl, rfl⟩
  rw [digits, List.takeWhile_append_of_pos digit, List.dropWhile_append_of_pos digit, ends.1,
    ends.2, List.append_nil]
  obtain ⟨d, ds, eq, -⟩ := exists_digit_cons n
  rw [eq]

lemma head?_toDigits_ne_zero (h : 0 < n) : (Nat.toDigits 10 n).head? ≠ some '0' := by
  induction n using Nat.strong_induction_on with
  | _ n ih =>
    by_cases small : n < 10
    · rw [Nat.toDigits_of_lt_base small]
      interval_cases n <;> decide
    · rw [Nat.toDigits_of_base_le (by decide) (by omega),
        List.head?_append_of_ne_nil _ Nat.toDigits_ne_nil]
      exact ih (n / 10) (by omega) (by omega)

lemma wholePart_toDigits (h : Follows rest) :
    wholePart (Nat.toDigits 10 n ++ rest) = some (Nat.toDigits 10 n, rest) := by
  rw [wholePart, digits_toDigits h]
  split
  · next d ds rest' eq =>
    have digits_eq : Nat.toDigits 10 n = '0' :: d :: ds := by simpa using congrArg (·.map (·.1)) eq
    cases n with
    | zero => cases digits_eq
    | succ n => exact absurd (congrArg List.head? digits_eq) (head?_toDigits_ne_zero n.succ_pos)
  · rfl

lemma digitsValue_toDigits (n : Nat) : digitsValue (Nat.toDigits 10 n) = n := by
  rw [digitsValue, ← Nat.ofDigitChars_eq_foldl, Nat.ofDigitChars_ten_toDigits]

lemma number_toDigits (h : Follows rest) :
    number (Nat.toDigits 10 n ++ rest) = some (nat n, rest) := by
  have whole := wholePart_toDigits (n := n) h
  have fraction : afterFraction rest = some (false, rest) := by cases h <;> rfl
  have exponent : afterExponent rest = some (false, rest) := by cases h <;> rfl
  obtain ⟨d, ds, eq, digit⟩ := exists_digit_cons n
  have unsigned : d ≠ '-' := ne_of_isDigit digit rfl
  have read : number (d :: (ds ++ rest)) = some (nat (digitsValue (d :: ds)), rest) := by
    rw [eq, List.cons_append] at whole
    simp [number, unsigned, whole, fraction, exponent]
  rw [eq, List.cons_append, read, ← eq, digitsValue_toDigits]

end Numbers

section Layout

@[simp] lemma skipBlanks_newLine : skipBlanks (newLine level text) = skipBlanks text := by
  rw [newLine, skipBlanks, List.dropWhile_cons_of_pos rfl, List.dropWhile_append_of_pos]
  · rfl
  · intro c hc
    rw [List.eq_of_mem_replicate hc]
    rfl

@[simp] lemma skipBlanks_cons (h : isBlank c = false) :
    skipBlanks (c :: cs) = c :: cs := List.dropWhile_cons_of_neg (by simp [h])

lemma length_skipBlanks_le (text : List Char) : (skipBlanks text).length ≤ text.length :=
  (List.dropWhile_suffix isBlank).length_le

/-- The text of a value opens with neither a blank nor the end of an array. -/
lemma Plain.opens (plain : v.Plain) (level : Nat) (rest : List Char) :
    ∃ c cs, v.prettyTo level rest = c :: cs ∧ isBlank c = false ∧ c ≠ ']' := by
  cases plain with
  | null => exact ⟨'n', _, rfl, rfl, by decide⟩
  | bool b =>
    cases b with
    | false => exact ⟨'f', _, rfl, rfl, by decide⟩
    | true => exact ⟨'t', _, rfl, rfl, by decide⟩
  | nat n =>
    obtain ⟨d, ds, eq, digit⟩ := exists_digit_cons n
    have not_blank : isBlank d = false := by
      simp [isBlank, ne_of_isDigit digit]
    exact ⟨d, ds ++ rest, by rw [prettyTo, eq, List.cons_append], not_blank, ne_of_isDigit digit rfl⟩
  | str s => exact ⟨'"', _, rfl, rfl, by decide⟩
  | @arr items _ => cases items <;> exact ⟨'[', _, rfl, rfl, by decide⟩
  | @obj members _ => cases members <;> exact ⟨'\x7b', _, rfl, rfl, by decide⟩

lemma Plain.skipBlanks_prettyTo (plain : v.Plain) (level : Nat) (rest : List Char) :
    skipBlanks (v.prettyTo level rest) = v.prettyTo level rest := by
  obtain ⟨c, cs, eq, not_blank, -⟩ := plain.opens level rest
  rw [eq, skipBlanks_cons not_blank]

/-- A value on a line of its own. -/
lemma Plain.skipBlanks_line (plain : v.Plain) (level : Nat) (rest : List Char) :
    skipBlanks (newLine level (v.prettyTo level rest)) = v.prettyTo level rest := by
  rw [skipBlanks_newLine, plain.skipBlanks_prettyTo]

lemma suffix_newLine (level : Nat) (rest : List Char) : rest <:+ newLine level rest :=
  (List.suffix_append _ rest).trans (List.suffix_cons ..)

lemma suffix_foldr_escaped (cs rest : List Char) :
    rest <:+ cs.foldr (fun c text => escaped c ++ text) rest := by
  induction cs with
  | nil => exact List.suffix_rfl
  | cons c cs ih => exact ih.trans (List.suffix_append ..)

lemma suffix_writeString (s : String) (rest : List Char) : rest <:+ writeString s rest :=
  ((List.suffix_cons ..).trans (suffix_foldr_escaped ..)).trans (List.suffix_cons ..)

lemma suffix_prettyItems {vs : List Json}
    (suffix : ∀ v ∈ vs, ∀ level rest, rest <:+ v.prettyTo level rest) (rest : List Char) :
    rest <:+ prettyItems level vs rest := by
  induction vs with
  | nil => exact List.suffix_rfl
  | cons v vs ih =>
    obtain ⟨suffix_v, suffix⟩ := List.forall_mem_cons.mp suffix
    exact (ih suffix).trans <| (suffix_v ..).trans <|
      (suffix_newLine ..).trans (List.suffix_cons ..)

lemma suffix_member {k : String} (suffix : rest <:+ v.prettyTo level rest) :
    rest <:+ writeString k (':' :: ' ' :: v.prettyTo level rest) :=
  suffix.trans <| (List.suffix_cons ..).trans <|
    (List.suffix_cons ..).trans (suffix_writeString ..)

lemma suffix_prettyMembers {ms : List (String × Json)}
    (suffix : ∀ m ∈ ms, ∀ level rest, rest <:+ m.2.prettyTo level rest) (rest : List Char) :
    rest <:+ prettyMembers level ms rest := by
  induction ms with
  | nil => exact List.suffix_rfl
  | cons m ms ih =>
    obtain ⟨suffix_m, suffix⟩ := List.forall_mem_cons.mp suffix
    exact (ih suffix).trans <| (suffix_member (suffix_m ..)).trans <|
      (suffix_newLine ..).trans (List.suffix_cons ..)

/-- The text that is written in front of a rest ends in that rest. -/
lemma Plain.suffix_prettyTo (plain : v.Plain) (level : Nat) (rest : List Char) :
    rest <:+ v.prettyTo level rest := by
  induction plain generalizing level rest with
  | null => exact List.suffix_append ..
  | bool b => cases b <;> exact List.suffix_append ..
  | nat n => exact List.suffix_append ..
  | str s => exact suffix_writeString ..
  | @arr items _ ih =>
    cases items with
    | nil => exact (List.suffix_cons ..).trans (List.suffix_cons ..)
    | cons v vs =>
      obtain ⟨ih_v, ih⟩ := List.forall_mem_cons.mp ih
      have tail : rest <:+ prettyItems (level + 1) vs (newLine level (']' :: rest)) :=
        (List.suffix_cons ..).trans ((suffix_newLine ..).trans (suffix_prettyItems ih _))
      exact tail.trans <| (ih_v ..).trans <| (suffix_newLine ..).trans (List.suffix_cons ..)
  | @obj members _ ih =>
    cases members with
    | nil => exact (List.suffix_cons ..).trans (List.suffix_cons ..)
    | cons m ms =>
      obtain ⟨ih_m, ih⟩ := List.forall_mem_cons.mp ih
      have tail : rest <:+ prettyMembers (level + 1) ms (newLine level ('\x7d' :: rest)) :=
        (List.suffix_cons ..).trans ((suffix_newLine ..).trans (suffix_prettyMembers ih _))
      exact tail.trans <| (suffix_member (ih_m ..)).trans <|
        (suffix_newLine ..).trans (List.suffix_cons ..)

end Layout

section Values

/-- The text of `v` is read as `v`, whatever follows it. A value in a value takes two from the bound
on the depth and has at least one character less of the text. -/
def Reads (v : Json) : Prop :=
  ∀ {level depth : Nat} {text rest : List Char}, skipBlanks text = v.prettyTo level rest →
    Follows rest → 2 * text.length ≤ depth + 1 → value (depth + 1) text = some (v, rest)

lemma value_of_isDigit (skip : skipBlanks text = d :: ds) (digit : d.isDigit = true) :
    value (depth + 1) text = number (d :: ds) := by
  have other : ∀ c : Char, c.isDigit = false → d ≠ c := fun _ => ne_of_isDigit digit
  rw [value, skip]
  split <;> simp_all

lemma value_of_string {s : String} (skip : skipBlanks text = '"' :: cs)
    (read : string cs = some (some s, rest)) : value (depth + 1) text = some (str s, rest) := by
  rw [value, skip]
  simp [read]

lemma value_of_items {vs : List Json} (skip : skipBlanks text = '[' :: cs)
    (inside : skipBlanks cs = c :: ds) (more : c ≠ ']')
    (read : items depth cs = some (vs, rest)) : value (depth + 1) text = some (arr vs, rest) := by
  rw [value, skip]
  simp [inside, more, read]

lemma value_of_members {ms : List (String × Json)} (skip : skipBlanks text = '\x7b' :: cs)
    (inside : skipBlanks cs = c :: ds) (more : c ≠ '\x7d')
    (read : members depth cs = some (ms.map fun m => (some m.1, m.2), rest)) :
    value (depth + 1) text = some (obj ms, rest) := by
  have named : (ms.map fun m => (some m.1, m.2)).mapM
      (fun m => m.1.map fun k : String => ((k, m.2) : String × Json)) = some ms := by
    apply mapM_map_eq_some
    exact fun _ => rfl
  rw [value, skip]
  simp [inside, more, read, named]

/-- What stands behind a value is no longer than the text that the value was read from. -/
lemma Plain.length_le (plain : v.Plain) (skip : skipBlanks text = v.prettyTo level rest) :
    rest.length ≤ text.length :=
  (plain.suffix_prettyTo level rest).length_le.trans (skip ▸ length_skipBlanks_le text)

/-- Items are read up to the closing bracket, by induction on those after the first. -/
lemma items_of_reads {vs : List Json} (plain : ∀ w ∈ v :: vs, w.Plain)
    (reads : ∀ w ∈ v :: vs, Reads w)
    (skip : skipBlanks text = v.prettyTo level (prettyItems level vs (newLine outer (']' :: rest))))
    (covered : 2 * text.length ≤ depth + 1) : items (depth + 2) text = some (v :: vs, rest) := by
  induction vs generalizing v depth text with
  | nil =>
    have first := reads v List.mem_cons_self skip (.lineEnd _) covered
    have closed : skipBlanks (prettyItems level [] (newLine outer (']' :: rest))) = ']' :: rest :=
      skipBlanks_newLine
    simp [items, first, closed]
  | cons w vs ih =>
    have first := reads v List.mem_cons_self skip (.comma _) covered
    have shorter := (plain v List.mem_cons_self).length_le skip
    rw [prettyItems, List.length_cons] at shorter
    obtain ⟨-, plain⟩ := List.forall_mem_cons.mp plain
    obtain ⟨-, reads⟩ := List.forall_mem_cons.mp reads
    obtain ⟨depth, rfl⟩ : ∃ d, depth = d + 1 := Nat.exists_eq_add_one_of_ne_zero (by omega)
    have others : items (depth + 2) (newLine level
        (w.prettyTo level (prettyItems level vs (newLine outer (']' :: rest))))) =
          some (w :: vs, rest) :=
      ih plain reads ((plain w List.mem_cons_self).skipBlanks_line ..) (by omega)
    rw [items, first]
    simp [prettyItems, skipBlanks_cons, isBlank, others]

/-- The key of a member is read, and behind the colon its value. -/
lemma member_of_reads {k : String} (plain : v.Plain) (reads : Reads v)
    (skip : skipBlanks text = writeString k (':' :: ' ' :: v.prettyTo level rest))
    (follows : Follows rest) (covered : 2 * text.length ≤ depth + 1) :
    ∃ cs behind, skipBlanks text = '"' :: cs ∧ string cs = some (some k, ':' :: behind) ∧
      value (depth + 1) behind = some (v, rest) ∧ rest.length ≤ text.length := by
  have suffix : ' ' :: v.prettyTo level rest <:+ skipBlanks text := by
    rw [skip]
    exact (List.suffix_cons ..).trans (suffix_writeString ..)
  have shorter := suffix.length_le.trans (length_skipBlanks_le text)
  have skip_v : skipBlanks (' ' :: v.prettyTo level rest) = v.prettyTo level rest :=
    plain.skipBlanks_prettyTo level rest
  exact ⟨_, _, skip, string_foldr_escaped .., reads skip_v follows (by omega),
    (plain.length_le skip_v).trans shorter⟩

/-- Members are read up to the closing brace, by induction on those after the first. -/
lemma members_of_reads {m : String × Json} {ms : List (String × Json)}
    (plain : ∀ n ∈ m :: ms, n.2.Plain) (reads : ∀ n ∈ m :: ms, Reads n.2)
    (skip : skipBlanks text = writeString m.1 (':' :: ' ' :: m.2.prettyTo level
      (prettyMembers level ms (newLine outer ('\x7d' :: rest)))))
    (covered : 2 * text.length ≤ depth + 1) :
    members (depth + 2) text = some ((m :: ms).map fun n => (some n.1, n.2), rest) := by
  induction ms generalizing m depth text with
  | nil =>
    obtain ⟨cs, behind, quote, key, first, -⟩ := member_of_reads (plain m List.mem_cons_self)
      (reads m List.mem_cons_self) skip (.lineEnd _) covered
    have closed : skipBlanks (prettyMembers level [] (newLine outer ('\x7d' :: rest))) =
      '\x7d' :: rest := skipBlanks_newLine
    rw [members, quote]
    simp [key, skipBlanks_cons, isBlank, first, closed]
  | cons n ms ih =>
    obtain ⟨cs, behind, quote, key, first, shorter⟩ := member_of_reads (plain m List.mem_cons_self)
      (reads m List.mem_cons_self) skip (.comma _) covered
    rw [prettyMembers, List.length_cons] at shorter
    obtain ⟨-, plain⟩ := List.forall_mem_cons.mp plain
    obtain ⟨-, reads⟩ := List.forall_mem_cons.mp reads
    obtain ⟨depth, rfl⟩ : ∃ d, depth = d + 1 := Nat.exists_eq_add_one_of_ne_zero (by omega)
    have others : members (depth + 2) (newLine level (writeString n.1 (':' :: ' ' ::
        n.2.prettyTo level (prettyMembers level ms (newLine outer ('\x7d' :: rest)))))) =
          some ((n :: ms).map fun n => (some n.1, n.2), rest) :=
      ih plain reads skipBlanks_newLine (by omega)
    rw [members, quote]
    simp [key, skipBlanks_cons, isBlank, first, prettyMembers, others]

lemma reads_arr {vs : List Json} (plain : ∀ v ∈ vs, v.Plain) (reads : ∀ v ∈ vs, Reads v) :
    Reads (arr vs) := by
  intro level depth text rest skip _ covered
  cases vs with
  | nil =>
    rw [value, skip]
    rfl
  | cons v vs =>
    have shorter := skip ▸ length_skipBlanks_le text
    rw [prettyTo, List.length_cons, newLine, List.length_cons] at shorter
    obtain ⟨depth, rfl⟩ : ∃ d, depth = d + 2 := ⟨depth - 2, by omega⟩
    have plain_v := plain v List.mem_cons_self
    obtain ⟨c, cs, opens, -, more⟩ := plain_v.opens (level + 1)
      (prettyItems (level + 1) vs (newLine level (']' :: rest)))
    have line := plain_v.skipBlanks_line (level + 1)
      (prettyItems (level + 1) vs (newLine level (']' :: rest)))
    apply value_of_items skip (line.trans opens) more
    exact items_of_reads plain reads line (by rw [newLine, List.length_cons]; omega)

lemma reads_obj {ms : List (String × Json)} (plain : ∀ m ∈ ms, m.2.Plain)
    (reads : ∀ m ∈ ms, Reads m.2) : Reads (obj ms) := by
  intro level depth text rest skip _ covered
  cases ms with
  | nil =>
    rw [value, skip]
    rfl
  | cons m ms =>
    have shorter := skip ▸ length_skipBlanks_le text
    rw [prettyTo, List.length_cons, newLine, List.length_cons] at shorter
    obtain ⟨depth, rfl⟩ : ∃ d, depth = d + 2 := ⟨depth - 2, by omega⟩
    have line : skipBlanks (newLine (level + 1) (writeString m.1 (':' :: ' ' ::
        m.2.prettyTo (level + 1) (prettyMembers (level + 1) ms
          (newLine level ('\x7d' :: rest)))))) = _ := skipBlanks_newLine
    apply value_of_members skip line (by decide)
    exact members_of_reads plain reads line (by rw [newLine, List.length_cons]; omega)

/-- By induction on how the value is built. -/
theorem Plain.reads (plain : v.Plain) : Reads v := by
  induction plain with
  | null =>
    intro level depth text rest skip _ _
    rw [value, skip]
    rfl
  | bool b =>
    intro level depth text rest skip _ _
    rw [value, skip]
    cases b <;> rfl
  | nat n =>
    intro level depth text rest skip follows _
    obtain ⟨d, ds, eq, digit⟩ := exists_digit_cons n
    have skip : skipBlanks text = d :: (ds ++ rest) := by
      rw [skip, prettyTo, eq, List.cons_append]
    rw [value_of_isDigit skip digit, ← List.cons_append, ← eq, number_toDigits follows]
  | str s =>
    intro level depth text rest skip _ _
    exact value_of_string skip (string_foldr_escaped s rest)
  | arr plain ih => exact reads_arr plain ih
  | obj plain ih => exact reads_obj plain ih

/-- A value without a part that is kept as it was written is read back from its text. -/
theorem parse?_pretty (plain : v.Plain) : parse? v.pretty = some v := by
  have read : value (2 * (v.prettyTo 0 []).length + 2) (v.prettyTo 0 []) = some (v, []) :=
    plain.reads (plain.skipBlanks_prettyTo 0 []) .nothing (by omega)
  rw [parse?, pretty, String.toList_ofList]
  dsimp only
  rw [read]
  rfl

end Values

end Interleaving.Json
