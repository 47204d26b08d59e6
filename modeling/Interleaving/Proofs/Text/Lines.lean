import Mathlib.Data.List.Basic
import Interleaving.Text.Lines

/-!
# Lines and numerals read back

Lines that are put together and cut apart again are the same lines, as long as none of them holds a
line feed or ends in a blank; a text without blanks at its ends is not trimmed; and a number is read
from its own digits.
-/

namespace Interleaving.Text

variable {cs line rest : List Char} {s : String}

/-- No blank stands at the start. -/
def BeginsPlain (cs : List Char) : Prop := ∀ c ∈ cs.head?, isBlank c = false

/-- No blank stands at the end. -/
def EndsPlain (cs : List Char) : Prop := ∀ c ∈ cs.getLast?, isBlank c = false

instance : Decidable (BeginsPlain cs) :=
  decidable_of_iff (cs.head?.all (!isBlank ·) = true) (by simp [BeginsPlain, Option.all_eq_true])

instance : Decidable (EndsPlain cs) :=
  decidable_of_iff (cs.getLast?.all (!isBlank ·) = true) (by simp [EndsPlain, Option.all_eq_true])

lemma EndsPlain.append {ds : List Char} (hc : EndsPlain cs) (hd : EndsPlain ds) :
    EndsPlain (cs ++ ds) := by
  intro c h
  rw [List.getLast?_append] at h
  cases e : ds.getLast? with
  | none =>
    rw [e] at h
    exact hc c h
  | some d =>
    rw [e] at h
    exact hd c (e.trans h)

lemma linesFrom_append (h : '\n' ∉ cs) :
    linesFrom line (cs ++ rest) = linesFrom (cs.reverse ++ line) rest := by
  induction cs generalizing line with
  | nil => rfl
  | cons c cs ih =>
    obtain ⟨hc, hcs⟩ := List.ne_and_not_mem_of_not_mem_cons h
    rw [List.cons_append, linesFrom, ih hcs, List.reverse_cons, List.append_assoc]
    · rfl
    · exact hc.symm

lemma linesFrom_newline (h : ∀ c ∈ line.head?, isBlank c = false) :
    linesFrom line ('\n' :: rest) = line.reverse :: linesFrom [] rest := by
  cases line with
  | nil => rfl
  | cons c before =>
    -- A carriage return before the line feed would go with it.
    have ne : c ≠ '\r' := by
      rintro rfl
      exact absurd (h '\r' rfl) (by decide)
    rw [linesFrom]
    intro before' e
    exact ne (List.cons.inj e).1

lemma linesFrom_flatMap {ls : List (List Char)} (h : ∀ cs ∈ ls, '\n' ∉ cs ∧ EndsPlain cs) :
    linesFrom [] (ls.flatMap (· ++ ['\n'])) = ls := by
  induction ls with
  | nil => rfl
  | cons cs ls ih =>
    obtain ⟨hn, hb⟩ := h cs List.mem_cons_self
    rw [List.flatMap_cons, List.append_assoc, linesFrom_append hn, List.append_nil,
      List.singleton_append, linesFrom_newline, List.reverse_reverse,
      ih fun cs' h' => h cs' (List.mem_cons_of_mem _ h')]
    rw [List.head?_reverse]
    exact hb

lemma lines_ofLines {ls : List String} (h : ∀ l ∈ ls, '\n' ∉ l.toList ∧ EndsPlain l.toList) :
    lines (ofLines ls) = ls := by
  have chars : (ofLines ls).toList = (ls.map String.toList).flatMap (· ++ ['\n']) := by
    rw [ofLines, String.toList_join, List.flatMap_map, List.flatMap_map]
    refine List.flatMap_congr fun l _ => ?_
    rw [String.toList_append]
    rfl
  rw [lines, chars, linesFrom_flatMap, List.map_map]
  · refine (List.map_congr_left fun l _ => ?_).trans (List.map_id ls)
    exact String.ofList_toList
  · intro cs hcs
    obtain ⟨l, hl, rfl⟩ := List.mem_map.mp hcs
    exact h l hl

/-- Whatever goes with a line feed stands at the end of its line. -/
lemma exists_linesFrom_newline (line rest : List Char) :
    ∃ kept, kept <:+ line ∧ linesFrom line ('\n' :: rest) = kept.reverse :: linesFrom [] rest := by
  cases line with
  | nil => exact ⟨[], List.suffix_rfl, rfl⟩
  | cons c before =>
    by_cases carriage : c = '\r'
    · subst carriage
      exact ⟨before, List.suffix_cons .., rfl⟩
    · refine ⟨c :: before, List.suffix_rfl, ?_⟩
      rw [linesFrom]
      intro before' e
      exact carriage (List.cons.inj e).1

lemma newline_not_mem_of_mem_linesFrom (h : '\n' ∉ line) (mem : cs ∈ linesFrom line rest) :
    '\n' ∉ cs := by
  induction rest generalizing line with
  | nil =>
    rw [linesFrom] at mem
    split at mem
    · cases mem
    · rw [List.mem_singleton.mp mem, List.mem_reverse]
      exact h
  | cons c rest ih =>
    by_cases newline : c = '\n'
    · subst newline
      obtain ⟨kept, suffix, cut⟩ := exists_linesFrom_newline line rest
      rw [cut] at mem
      rcases List.mem_cons.mp mem with rfl | mem
      · rw [List.mem_reverse]
        exact fun m => h (suffix.subset m)
      · exact ih List.not_mem_nil mem
    · rw [linesFrom] at mem
      · apply ih _ mem
        intro m
        rcases List.mem_cons.mp m with e | m
        · exact newline e.symm
        · exact h m
      · exact newline

lemma newline_not_mem_of_mem_lines {l : String} (mem : l ∈ lines s) : '\n' ∉ l.toList := by
  obtain ⟨cs, cut, rfl⟩ := List.mem_map.mp mem
  rw [String.toList_ofList]
  exact newline_not_mem_of_mem_linesFrom List.not_mem_nil cut

lemma dropWhile_isBlank (h : BeginsPlain cs) : cs.dropWhile isBlank = cs := by
  cases cs with
  | nil => rfl
  | cons c cs => rw [List.dropWhile_cons_of_neg (by simp [h c rfl])]

lemma trim_eq_self (begins : BeginsPlain s.toList) (ends : EndsPlain s.toList) : trim s = s := by
  have ends' : BeginsPlain s.toList.reverse := by
    rw [BeginsPlain, List.head?_reverse]
    exact ends
  rw [trim, trimStart, trimEnd, dropWhile_isBlank begins, dropWhile_isBlank ends',
    List.reverse_reverse, String.ofList_toList]

lemma EndsPlain.of_append {ds : List Char} (h : EndsPlain (cs ++ ds)) : EndsPlain ds := by
  intro c last
  apply h c
  rw [List.getLast?_append, Option.mem_def.mp last, Option.some_or]
  rfl

lemma endsPlain_trim (s : String) : EndsPlain (trim s).toList := by
  intro c last
  rw [trim, String.toList_ofList, trimEnd, List.getLast?_reverse] at last
  have first := List.head?_dropWhile_not isBlank (trimStart s.toList).reverse
  rw [Option.mem_def.mp last] at first
  exact first

lemma mem_of_mem_trim {c : Char} (mem : c ∈ (trim s).toList) : c ∈ s.toList := by
  rw [trim, String.toList_ofList, trimEnd, List.mem_reverse] at mem
  have mem := (List.dropWhile_sublist isBlank).subset mem
  exact (List.dropWhile_sublist isBlank).subset (List.mem_reverse.mp mem)

section Numerals

lemma isBlank_of_isDigit {c : Char} (h : c.isDigit = true) : isBlank c = false := by
  obtain ⟨low, high⟩ := Char.isDigit_iff_toNat.mp h
  have digits : ∀ n < 58, 48 ≤ n → withinBounds n false blankBounds = false := by decide
  exact digits c.toNat (Nat.lt_succ_of_le high) low

lemma digitsValue?_eq_some (h : ∀ c ∈ cs, c.isDigit = true) (acc : Nat) :
    digitsValue? acc cs = some (Nat.ofDigitChars 10 cs acc) := by
  induction cs generalizing acc with
  | nil => rfl
  | cons c cs ih =>
    rw [digitsValue?, if_pos (h c List.mem_cons_self),
      ih fun c' h' => h c' (List.mem_cons_of_mem _ h'), Nat.ofDigitChars_cons]

lemma readNat?_ofList (ne : cs ≠ []) (h : ∀ c ∈ cs, c.isDigit = true) :
    readNat? (.ofList cs) = some (Nat.ofDigitChars 10 cs 0) := by
  rw [readNat?, String.toList_ofList]
  split
  · exact absurd rfl ne
  · next c rest => exact absurd (h '+' List.mem_cons_self) (by decide)
  · exact digitsValue?_eq_some h 0

lemma toList_toString (n : UInt64) : (toString n).toList = Nat.toDigits 10 n.toNat := by
  show (Nat.repr n.toNat).toList = _
  exact Nat.toList_repr

lemma isDigit_of_mem_toString {n : UInt64} {c : Char} (h : c ∈ (toString n).toList) :
    c.isDigit = true := by
  rw [toList_toString] at h
  exact Nat.isDigit_of_mem_toDigits (by decide) (by decide) h

lemma toList_toString_ne_nil (n : UInt64) : (toString n).toList ≠ [] := by
  rw [toList_toString]
  exact Nat.toDigits_ne_nil

lemma readUInt64?_toString (n : UInt64) : readUInt64? (toString n) = some n := by
  have read := readNat?_ofList (toList_toString_ne_nil n) fun c => isDigit_of_mem_toString
  rw [String.ofList_toList, toList_toString, Nat.ofDigitChars_ten_toDigits] at read
  rw [readUInt64?, read, Option.bind_some, if_pos n.toNat_lt_size, UInt64.ofNat_toNat]

lemma beginsPlain_toString (n : UInt64) : BeginsPlain (toString n).toList := fun _ h =>
  isBlank_of_isDigit (isDigit_of_mem_toString (List.mem_of_mem_head? h))

lemma endsPlain_toString (n : UInt64) : EndsPlain (toString n).toList := fun _ h =>
  isBlank_of_isDigit (isDigit_of_mem_toString (List.mem_of_mem_getLast? h))

end Numerals

end Interleaving.Text
