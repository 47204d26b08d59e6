import Interleaving.Proofs.Text.Lines
import Interleaving.Trace

/-!
# Traces read back

A trace is read from its own text, if and only if the name in its header can be told from the line that
holds it. All traces that are read from some text have such names (`Trace.parse_text_eq_ok_iff`).
-/

namespace Interleaving.Trace

open Text

variable {t t' : Trace} {line name : String} {n : Nat}

/-- A text that can stand on a line of its own: it has no line feed, and no blank at its end. -/
def IsLine (line : String) : Prop := '\n' ∉ line.toList ∧ EndsPlain line.toList

instance : Decidable (IsLine line) :=
  inferInstanceAs (Decidable ('\n' ∉ line.toList ∧ EndsPlain line.toList))

section Headers

lemma after?_append (start cs : List Char) : after? start (start ++ cs) = some cs := by
  induction start with
  | nil => rfl
  | cons c start ih =>
    rw [List.cons_append, after?, if_pos rfl]
    exact ih

lemma afterHeader?_append {header rest : String} (h : line.toList = header.toList ++ rest.toList) :
    afterHeader? header line = some rest := by
  rw [afterHeader?, h, after?_append, Option.map_some, String.ofList_toList]

lemma readLine?_header (trimmed : trim line = line) (h : (afterHeader? "--" line).isSome = true)
    (first : t.steps.isEmpty = true) : t.readLine? line = t.readHeader? line := by
  have ne : ¬ line.isEmpty = true := by
    intro e
    cases String.isEmpty_iff.mp e
    cases h
  simp only [readLine?, trimmed]
  rw [if_neg ne, if_pos h, if_pos first]

lemma readLine?_fairHeader (first : t.steps.isEmpty = true) :
    t.readLine? fairHeader = some { t with fairScheduling := true } := by
  have trimmed : trim fairHeader = fairHeader := by decide
  have h : (afterHeader? "--" fairHeader).isSome = true := by decide
  rw [readLine?_header trimmed h first, readHeader?, if_pos rfl]

/-- A header line is trimmed to itself if what follows the header has no blank at its end. -/
lemma trim_header (header : String) {rest : String} (begins : BeginsPlain header.toList)
    (ne : header.toList ≠ []) (ends : EndsPlain header.toList) (h : EndsPlain rest.toList) :
    trim (header ++ rest) = header ++ rest := by
  apply trim_eq_self
  · rw [String.toList_append]
    intro c hc
    rw [List.head?_append_of_ne_nil _ ne] at hc
    exact begins c hc
  · rw [String.toList_append]
    exact ends.append h

lemma readLine?_threshold (value : UInt64) (first : t.steps.isEmpty = true) :
    t.readLine? (thresholdHeader ++ toString value) =
      some { t with livenessThreshold := some value } := by
  have trimmed := trim_header thresholdHeader (by decide) (by decide) (by decide)
    (endsPlain_toString value)
  have dashes : (afterHeader? "--" (thresholdHeader ++ toString value)).isSome = true := by
    rw [afterHeader?, String.toList_append]
    rfl
  have found : afterHeader? thresholdHeader (thresholdHeader ++ toString value) =
      some (toString value) := afterHeader?_append String.toList_append
  have ne : thresholdHeader ++ toString value ≠ fairHeader := by
    -- Otherwise the other header would be read in `fairHeader`.
    intro e
    rw [e] at found
    cases found
  rw [readLine?_header trimmed dashes first, readHeader?, if_neg ne, found]
  simp only [readUInt64?_toString, Option.map_some]

lemma readLine?_method (h : EndsPlain name.toList) (first : t.steps.isEmpty = true) :
    t.readLine? (methodHeader ++ name) = some { t with testMethod := some name } := by
  have trimmed := trim_header methodHeader (by decide) (by decide) (by decide) h
  have dashes : (afterHeader? "--" (methodHeader ++ name)).isSome = true := by
    rw [afterHeader?, String.toList_append]
    rfl
  have found : afterHeader? methodHeader (methodHeader ++ name) = some name :=
    afterHeader?_append String.toList_append
  have other : afterHeader? thresholdHeader (methodHeader ++ name) = none := by
    rw [afterHeader?, String.toList_append]
    rfl
  have ne : methodHeader ++ name ≠ fairHeader := by
    intro e
    rw [e] at found
    cases found
  rw [readLine?_header trimmed dashes first, readHeader?, if_neg ne, other, found]
  rfl

end Headers

section Steps

lemma isEmpty_eq_false (c : Char) (cs : List Char) (h : line.toList = c :: cs) :
    ¬ line.isEmpty = true := by
  intro e
  cases String.isEmpty_iff.mp e
  cases h

/-- A line that does not begin with a dash is read as a decision. -/
lemma readLine?_of_head {c : Char} {cs : List Char} (h : line.toList = c :: cs) (dash : c ≠ '-')
    (trimmed : trim line = line) : t.readLine? line = (readStep? line).map t.push := by
  have ne := isEmpty_eq_false c cs h
  have none : ¬ (afterHeader? "--" line).isSome = true := by
    have stop : after? ['-', '-'] (c :: cs) = none := if_neg dash.symm
    rw [afterHeader?, h, show "--".toList = ['-', '-'] from rfl, stop]
    decide
  simp only [readLine?, trimmed]
  rw [if_neg ne, if_neg none]

lemma toList_schedule (id : OperationId) :
    (TraceStep.schedule id).text.toList = '(' :: ((toString id).toList ++ [')']) := by
  show ("(" ++ toString id ++ ")").toList = _
  rw [String.toList_append, String.toList_append]
  rfl

lemma readStep?_schedule (id : OperationId) :
    readStep? (TraceStep.schedule id).text = some (.schedule id) := by
  have chars := toList_schedule id
  have inner : parenthesized? (TraceStep.schedule id).text = some (toString id) := by
    rw [parenthesized?, chars]
    simp only [List.reverse_append, List.reverse_singleton, List.singleton_append,
      List.reverse_reverse, String.ofList_toList]
  have isNot {s : String} (h : s.toList.head? ≠ some '(') :
      (TraceStep.schedule id).text ≠ s := by
    rintro rfl
    rw [chars] at h
    exact h rfl
  rw [readStep?, if_neg (isNot (by decide)), if_neg (isNot (by decide)), inner]
  simp only [trim_eq_self (beginsPlain_toString id) (endsPlain_toString id),
    readUInt64?_toString, Option.map_some]

lemma head_toString (n : UInt64) :
    ∃ c cs, (toString n).toList = c :: cs ∧ c.isDigit = true := by
  cases h : (toString n).toList with
  | nil => exact absurd h (toList_toString_ne_nil n)
  | cons c cs =>
    refine ⟨c, cs, rfl, isDigit_of_mem_toString (n := n) ?_⟩
    rw [h]
    exact List.mem_cons_self

lemma readStep?_integer (value : UInt64) :
    readStep? (TraceStep.integer value).text = some (.integer value) := by
  obtain ⟨c, cs, chars, digit⟩ := head_toString value
  have isNot {s : String} (h : s.toList.head?.any (·.isDigit) = false) :
      (TraceStep.integer value).text ≠ s := by
    rintro rfl
    rw [TraceStep.text, chars, List.head?_cons, Option.any_some, digit] at h
    cases h
  have outer : parenthesized? (TraceStep.integer value).text = none := by
    rw [parenthesized?, TraceStep.text, chars]
    split
    · next rest e =>
      cases (List.cons.inj e).1
      cases digit
    · rfl
  rw [readStep?, if_neg (isNot (by decide)), if_neg (isNot (by decide)), outer]
  simp only [TraceStep.text, readUInt64?_toString, Option.map_some]

/-- A decision is read from its own line. -/
lemma readLine?_text (step : TraceStep) : t.readLine? step.text = some (t.push step) := by
  cases step with
  | schedule id =>
    have chars := toList_schedule id
    have trimmed : trim (TraceStep.schedule id).text = (TraceStep.schedule id).text := by
      apply trim_eq_self
      · rw [chars]
        intro c h
        cases h
        decide
      · have opened : EndsPlain (['('] ++ (toString id).toList) :=
          EndsPlain.append (by decide) (endsPlain_toString id)
        have closed : EndsPlain (['('] ++ (toString id).toList ++ [')']) :=
          opened.append (by decide)
        rw [chars]
        exact closed
    rw [readLine?_of_head chars (by decide) trimmed, readStep?_schedule, Option.map_some]
  | boolean b =>
    cases b with
    | false =>
      rw [readLine?_of_head (c := 'F') rfl (by decide) (by decide)]
      rfl
    | true =>
      rw [readLine?_of_head (c := 'T') rfl (by decide) (by decide)]
      rfl
  | integer value =>
    obtain ⟨c, cs, chars, digit⟩ := head_toString value
    have dash : c ≠ '-' := by
      rintro rfl
      cases digit
    have trimmed := trim_eq_self (beginsPlain_toString value) (endsPlain_toString value)
    have read := readLine?_of_head (t := t) chars dash trimmed
    have step := readStep?_integer value
    rw [TraceStep.text] at step ⊢
    rw [read, step, Option.map_some]

end Steps

/-- Adds decisions one after another. -/
def extend (t : Trace) (steps : List TraceStep) : Trace := steps.foldl push t

lemma extend_append (t : Trace) (xs ys : List TraceStep) :
    t.extend (xs ++ ys) = (t.extend xs).extend ys := List.foldl_append

lemma extend_eq (t : Trace) (steps : List TraceStep) :
    t.extend steps = { t with steps := t.steps ++ steps.toArray } := by
  induction steps generalizing t with
  | nil => rw [extend, List.foldl_nil, Array.append_empty]
  | cons step steps ih =>
    have h : t.extend (step :: steps) = (t.push step).extend steps := rfl
    rw [h, ih, push, List.push_append_toArray]

lemma size_extend (t : Trace) (steps : List TraceStep) :
    (t.extend steps).steps.size = t.steps.size + steps.length := by
  rw [extend_eq]
  simp

section Lines

lemma readLines_cons {rest : List String} (h : t.readLine? line = some t') :
    readLines n t (line :: rest) = readLines (n + 1) t' rest := by
  rw [readLines, h]

lemma readLines_steps (steps : List TraceStep) :
    readLines n t (steps.map (·.text)) = .ok (t.extend steps) := by
  induction steps generalizing n t with
  | nil => rfl
  | cons step steps ih =>
    rw [List.map_cons, readLines_cons (readLine?_text step), ih]
    rfl

variable (n : Nat) (fair : Bool) (threshold : Option UInt64) {method : Option String}
variable (rest : List String)

lemma readLines_fair : ∃ m, readLines n empty ((if fair then [fairHeader] else []) ++ rest) =
    readLines m ⟨#[], fair, none, none⟩ rest := by
  cases fair with
  | false => exact ⟨n, rfl⟩
  | true => exact ⟨n + 1, readLines_cons (readLine?_fairHeader rfl)⟩

lemma readLines_threshold : ∃ m,
    readLines n ⟨#[], fair, none, none⟩ ((match threshold with
      | some value => [s!"{thresholdHeader}{value}"]
      | none => []) ++ rest) =
    readLines m ⟨#[], fair, threshold, none⟩ rest := by
  cases threshold with
  | none => exact ⟨n, rfl⟩
  | some value => exact ⟨n + 1, readLines_cons (readLine?_threshold value rfl)⟩

lemma readLines_method (h : ∀ name ∈ method, IsLine name) : ∃ m,
    readLines n ⟨#[], fair, threshold, none⟩ ((match method with
      | some name => [methodHeader ++ name]
      | none => []) ++ rest) =
    readLines m ⟨#[], fair, threshold, method⟩ rest := by
  cases method with
  | none => exact ⟨n, rfl⟩
  | some name => exact ⟨n + 1, readLines_cons (readLine?_method (h name rfl).2 rfl)⟩

lemma isLine_append {header rest : String} (h : IsLine header) (h' : IsLine rest) :
    IsLine (header ++ rest) := by
  rw [IsLine, String.toList_append, List.mem_append, not_or]
  exact ⟨⟨h.1, h'.1⟩, h.2.append h'.2⟩

lemma isLine_toString (value : UInt64) : IsLine (toString value) := by
  refine ⟨fun h => ?_, endsPlain_toString value⟩
  cases isDigit_of_mem_toString h

lemma isLine_step (step : TraceStep) : IsLine step.text := by
  cases step with
  | schedule id =>
    exact isLine_append (isLine_append (by decide) (isLine_toString id)) (by decide)
  | boolean b => cases b <;> decide
  | integer value => exact isLine_toString value

lemma isLine_of_mem_lines (h : ∀ name ∈ t.testMethod, IsLine name) (mem : line ∈ t.lines) :
    IsLine line := by
  obtain ⟨steps, fair, threshold, method⟩ := t
  simp only [lines, List.mem_append, List.mem_map] at mem
  obtain ((mem | mem) | mem) | ⟨step, -, rfl⟩ := mem
  · cases fair with
    | false => cases mem
    | true =>
      cases List.mem_singleton.mp mem
      decide
  · cases threshold with
    | none => cases mem
    | some value =>
      cases List.mem_singleton.mp mem
      exact isLine_append (by decide) (isLine_toString value)
  · cases method with
    | none => cases mem
    | some name =>
      cases List.mem_singleton.mp mem
      exact isLine_append (by decide) (h name rfl)
  · exact isLine_step step

end Lines

/-- A trace is read from its own text, if the name in its header fits on a line. -/
lemma parse_text (h : ∀ name ∈ t.testMethod, IsLine name) : parse t.text = .ok t := by
  have cut : Text.lines t.text = t.lines := lines_ofLines fun _ mem => isLine_of_mem_lines h mem
  -- Each header that is there fills in its field, and the decisions come last.
  obtain ⟨steps, fair, threshold, method⟩ := t
  simp only [parse, cut, lines, List.append_assoc]
  obtain ⟨k, fair⟩ := readLines_fair 1 fair _
  obtain ⟨l, threshold⟩ := readLines_threshold k _ threshold _
  obtain ⟨m, method⟩ := readLines_method l _ _ _ h
  refine fair.trans (threshold.trans (method.trans ?_))
  rw [readLines_steps, extend_eq]
  simp

section Names

variable {header : String}

lemma after?_eq_some {start cs rest : List Char} (h : after? start cs = some rest) :
    cs = start ++ rest := by
  induction start generalizing cs with
  | nil =>
    cases h
    rfl
  | cons a start ih =>
    cases cs with
    | nil => cases h
    | cons c cs =>
      rw [after?] at h
      split at h
      · next e => rw [e, ih h, List.cons_append]
      · cases h

/-- What follows a header on a line could stand on a line of its own. -/
lemma IsLine.of_afterHeader? (h : IsLine line) (found : afterHeader? header line = some name) :
    IsLine name := by
  obtain ⟨rest, after, rfl⟩ := Option.map_eq_some_iff.mp found
  have chars := after?_eq_some after
  rw [IsLine, chars] at h
  rw [IsLine, String.toList_ofList]
  exact ⟨fun mem => h.1 (List.mem_append_right _ mem), h.2.of_append⟩

lemma isLine_trim {raw : String} (h : '\n' ∉ raw.toList) : IsLine (trim raw) :=
  ⟨fun mem => h (mem_of_mem_trim mem), endsPlain_trim raw⟩

lemma isLine_of_readHeader? (h : ∀ name ∈ t.testMethod, IsLine name) (own : IsLine line)
    (read : t.readHeader? line = some t') : ∀ name ∈ t'.testMethod, IsLine name := by
  rw [readHeader?] at read
  split at read
  · cases read
    exact h
  · split at read
    · obtain ⟨n, -, rfl⟩ := Option.map_eq_some_iff.mp read
      exact h
    · obtain ⟨name, found, rfl⟩ := Option.map_eq_some_iff.mp read
      intro name' e
      cases e
      exact own.of_afterHeader? found

lemma isLine_of_readLine? {raw : String} (h : ∀ name ∈ t.testMethod, IsLine name)
    (own : '\n' ∉ raw.toList) (read : t.readLine? raw = some t') :
    ∀ name ∈ t'.testMethod, IsLine name := by
  simp only [readLine?] at read
  split at read
  · cases read
    exact h
  · split at read
    · split at read
      · exact isLine_of_readHeader? h (isLine_trim own) read
      · cases read
    · obtain ⟨step, -, rfl⟩ := Option.map_eq_some_iff.mp read
      exact h

lemma isLine_of_readLines {ls : List String} (h : ∀ name ∈ t.testMethod, IsLine name)
    (own : ∀ l ∈ ls, '\n' ∉ l.toList) (read : readLines n t ls = .ok t') :
    ∀ name ∈ t'.testMethod, IsLine name := by
  induction ls generalizing n t with
  | nil =>
    cases read
    exact h
  | cons l ls ih =>
    rw [readLines] at read
    split at read
    · next first =>
      apply ih (isLine_of_readLine? h (own l List.mem_cons_self) first) _ read
      exact fun l' mem => own l' (List.mem_cons_of_mem _ mem)
    · cases read

lemma isLine_of_parse {s : String} (read : parse s = .ok t) : ∀ name ∈ t.testMethod, IsLine name := by
  apply isLine_of_readLines _ (fun l => newline_not_mem_of_mem_lines) read
  intro name h
  cases h

end Names

/-- A trace is read from its own text if and only if the name in its header, if there is one, has no
line feed and no blank at its end. A trace that is read from any text is. -/
theorem parse_text_eq_ok_iff (t : Trace) :
    (parse t.text = .ok t ↔ ∀ name ∈ t.testMethod, '\n' ∉ name.toList ∧ EndsPlain name.toList) ∧
      ∀ s, parse s = .ok t → parse t.text = .ok t :=
  ⟨⟨isLine_of_parse, parse_text⟩, fun _ read => parse_text (isLine_of_parse read)⟩

/-- Blank lines, margins, carriage returns, signs and leading zeros are not written again. -/
theorem parse_text_of_loose_lines :
    let s := "\r\n  --test-method: ping pong \t\r\n\n( +3 )\r\n True\n007\r"
    let t : Trace := ⟨#[.schedule 3, .boolean true, .integer 7], false, none, some " ping pong"⟩
    parse s = .ok t ∧ t.text = "--test-method: ping pong\n(3)\nTrue\n7\n" ∧
      parse t.text = .ok t := by
  intro s t
  have read : parse s = .ok t := by decide +kernel
  exact ⟨read, by decide +kernel, (parse_text_eq_ok_iff t).2 s read⟩

end Interleaving.Trace
