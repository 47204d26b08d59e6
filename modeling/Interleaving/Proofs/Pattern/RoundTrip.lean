import Interleaving.Proofs.Pattern.Association
import Interleaving.Proofs.Pattern.Reading

/-!
# Reading back what is written

Nests of alternatives and nests of sequences are written without groups, whichever way they
associate, so the tokens that a pattern is written with derive its left-nested form
(`Pattern.rederived`). That form is what is read from the text (`Pattern.parse_text_eq_leftward`),
and a pattern that has been read comes back only if it has it (`Pattern.parse_text_eq_self_iff`). The
values of a single term come back if none of their characters has an escape but quotes and backslashes
(`Pattern.parse_text_of_term`).
-/

namespace Interleaving
open Token

namespace Pattern

variable {k : Phrase} {n m : Nat} {us : List TokenKind} {p q l r : Pattern} {t : EventTerm}

section Written

lemma conditions_kinds {es : List (String × String)} (h : es ≠ []) :
    Conditions (EventTerm.conditionKinds es) es := by
  fun_induction EventTerm.conditionKinds es with
  | case1 => exact absurd rfl h
  | case2 => exact .last .quoted
  | case3 f v es more ih => exact .more .quoted (ih more)

lemma derives_kinds (h : t.Named) : Derives .item 0 t.kinds (event t) := by
  obtain name | rfl := h.name
  · obtain ⟨us, e, braces⟩ : ∃ us, t.kinds = .ident t.name :: us ∧
        Braces us t.constraints.toList := by
      rw [EventTerm.kinds, EventTerm.nameKind, EventTerm.isAny_eq_false name]
      split
      · next bare =>
        rw [List.isEmpty_iff.mp bare]
        exact ⟨[], rfl, .none⟩
      · next some =>
        refine ⟨_, rfl, .some (conditions_kinds fun bare => some ?_)⟩
        exact List.isEmpty_iff.mpr bare
    have d : Derives .item 0 (.ident t.name :: us) _ := .event braces
    rw [SortedMap.ofList_toList] at d
    exact e ▸ d
  · exact .any

/-- The tokens that a pattern is written with derive its left-nested form. Alternatives on the right
of others are not grouped, nor is a sequence on the right of another, so these are added one by one
to whatever stands before them. -/
structure Rederived (p : Pattern) : Prop where
  alternatives : Derives .alternatives p.nesting p.kinds p.leftward
  bar : ∀ {n us q}, Derives .alternatives n us q →
    Derives .alternatives (max n p.nesting) (us ++ .bar :: p.kinds) (addAlt q p.leftward)
  sequence : Derives .sequence (nestingWithin 1 p p.nesting) (enclosed 1 p p.kinds) p.leftward
  comma : ∀ {n us q}, Derives .sequence n us q →
    Derives .sequence (max n (nestingWithin 1 p p.nesting)) (us ++ .comma :: enclosed 1 p p.kinds)
      (addSeq q p.leftward)
  repeated : Derives .repeated (nestingWithin 2 p p.nesting) (enclosed 2 p p.kinds) p.leftward

lemma rederived_of_repeated (h : p.rank = 2) (d : Derives .repeated p.nesting p.kinds p.leftward) :
    Rederived p := by
  have whole {min : Nat} (le : min ≤ 2) :
      nestingWithin min p p.nesting = p.nesting ∧ enclosed min p p.kinds = p.kinds := by
    rw [nestingWithin, enclosed, h, if_neg (by omega), if_neg (by omega)]
    exact ⟨rfl, rfl⟩
  refine ⟨.sequence (.repeated d), fun d' => ?_, ?_, fun d' => ?_, ?_⟩
  · rw [addAlt_eq (by rw [rank_leftward, h]; decide)]
    exact .bar d' (.repeated d)
  · rw [(whole (by decide)).1, (whole (by decide)).2]
    exact .repeated d
  · rw [(whole (by decide)).1, (whole (by decide)).2, addSeq_eq (by rw [rank_leftward, h]; decide)]
    exact .comma d' d
  · rw [(whole (by decide)).1, (whole (by decide)).2]
    exact d

lemma Rederived.seq (hl : Rederived l) (hr : Rederived r) : Rederived (seq l r) := by
  have d : Derives .sequence (Pattern.seq l r).nesting (Pattern.seq l r).kinds
      (Pattern.seq l r).leftward := hr.comma hl.sequence
  refine ⟨.sequence d, fun d' => ?_, d, fun d' => ?_, .item (.group (.sequence d))⟩
  · rw [addAlt_eq (by rw [rank_leftward]; exact Nat.one_ne_zero)]
    exact .bar d' d
  · have later := hr.comma (hl.comma d')
    rw [max_assoc, List.append_assoc, addSeq_assoc] at later
    exact later

lemma Rederived.alt (hl : Rederived l) (hr : Rederived r) : Rederived (alt l r) := by
  have d : Derives .alternatives (Pattern.alt l r).nesting (Pattern.alt l r).kinds
      (Pattern.alt l r).leftward := hr.bar hl.alternatives
  refine ⟨d, fun d' => ?_, .repeated (.item (.group d)), fun d' => ?_, .item (.group d)⟩
  · have later := hr.bar (hl.bar d')
    rw [max_assoc, List.append_assoc, addAlt_assoc] at later
    exact later
  · rw [addSeq_eq (by rw [rank_leftward]; exact Nat.zero_ne_one)]
    exact .comma d' (.item (.group d))

lemma rederived (h : p.Named) : Rederived p := by
  induction p with
  | empty => exact rederived_of_repeated rfl (.item .empty)
  | event t => exact rederived_of_repeated rfl (.item (derives_kinds (h t List.mem_cons_self)))
  | alt l r ihl ihr =>
    obtain ⟨hl, hr⟩ := List.forall_mem_append.mp h
    exact (ihl hl).alt (ihr hr)
  | seq l r ihl ihr =>
    obtain ⟨hl, hr⟩ := List.forall_mem_append.mp h
    exact (ihl hl).seq (ihr hr)
  | star p ih => exact rederived_of_repeated rfl (.star (ih h).repeated)
  | maybe p ih => exact rederived_of_repeated rfl (.question (ih h).repeated)

lemma scan_text (h : p.Named) :
    (Token.scan p.text).map (·.kind) = p.reread.kinds ++ [.stop] := by
  have ends : EndsName [] := nofun
  have whole := lexemes_chars h ends
  rw [List.append_nil, lexemes_nil] at whole
  rw [← whole, ← String.toList_ofList (l := p.chars)]
  rfl

/-- A pattern whose names are readable and whose groups do not nest too deep is read from its text,
left-nested and with its values reread. -/
lemma parse_text_eq_ok (h : p.Named) :
    parse p.text = .ok q ↔ p.nesting ≤ maxNesting ∧ q = p.reread.leftward := by
  have d := (rederived h.reread).alternatives
  rw [reread, nesting_mapTerms] at d
  have enough : p.nesting ≤ maxNesting → parse p.text = .ok p.reread.leftward := fun shallow =>
    parse_eq_ok.mpr ⟨p.nesting, _, shallow, scan_text h, d⟩
  constructor
  · intro read
    obtain ⟨n, us, shallow, scanned, d'⟩ := parse_eq_ok.mp read
    rw [scan_text h] at scanned
    obtain rfl : p.reread.kinds = us := List.append_cancel_right scanned
    obtain rfl := d.nesting_unique d'
    exact ⟨shallow, Except.ok.inj (read.symm.trans (enough shallow))⟩
  · rintro ⟨shallow, rfl⟩
    exact enough shallow

end Written

section Read

variable {cs : List (String × String)}

lemma Conditions.isName (h : Conditions us cs) (cuts : ∀ k ∈ us, IsCut k) :
    ∀ c ∈ cs, IsName c.1 := by
  induction h with
  | last _ =>
    rw [List.forall_mem_singleton]
    exact cuts (.ident _) List.mem_cons_self
  | @more f v _ _ _ _ _ ih =>
    rw [List.forall_mem_cons]
    exact ⟨cuts (.ident f) List.mem_cons_self, ih fun k hk => cuts k (by simp [hk])⟩

lemma Braces.isName (h : Braces us cs) (cuts : ∀ k ∈ us, IsCut k) : ∀ c ∈ cs, IsName c.1 := by
  cases h with
  | none => exact nofun
  | empty => exact nofun
  | some h => exact h.isName fun k hk => cuts k (by simp [hk])

/-- The names of a pattern that is read are readable. -/
lemma Derives.named (h : Derives k n us p) (cuts : ∀ k ∈ us, IsCut k) : p.Named := by
  induction h with
  | sequence _ ih => exact ih cuts
  | repeated _ ih => exact ih cuts
  | item _ ih => exact ih cuts
  | bar _ _ ih ih' =>
    obtain ⟨front, back⟩ := List.forall_mem_append.mp cuts
    exact List.forall_mem_append.mpr ⟨ih front, ih' (List.forall_mem_cons.mp back).2⟩
  | comma _ _ ih ih' =>
    obtain ⟨front, back⟩ := List.forall_mem_append.mp cuts
    exact List.forall_mem_append.mpr ⟨ih front, ih' (List.forall_mem_cons.mp back).2⟩
  | next _ _ ih ih' =>
    obtain ⟨front, back⟩ := List.forall_mem_append.mp cuts
    exact List.forall_mem_append.mpr ⟨ih front, ih' back⟩
  | plus _ ih =>
    have inner := ih (List.forall_mem_append.mp cuts).1
    exact List.forall_mem_append.mpr ⟨inner, inner⟩
  | question _ ih => exact ih (List.forall_mem_append.mp cuts).1
  | star _ ih => exact ih (List.forall_mem_append.mp cuts).1
  | @event name _ cs braces =>
    obtain ⟨isName, inner⟩ := List.forall_mem_cons.mp cuts
    refine List.forall_mem_singleton.mpr ⟨.inl isName, fun e he => ?_⟩
    obtain ⟨c, hc, eq⟩ := SortedMap.exists_mem_of_mem_ofList he
    exact eq ▸ braces.isName inner c hc
  | any => exact List.forall_mem_singleton.mpr ⟨.inr rfl, nofun⟩
  | empty => exact nofun
  | group _ ih =>
    have inner := (List.forall_mem_cons.mp cuts).2
    exact ih (List.forall_mem_append.mp inner).1

lemma named_of_parse {source : String} (h : parse source = .ok p) : p.Named := by
  obtain ⟨n, us, -, scanned, d⟩ := parse_eq_ok.mp h
  obtain ⟨ks, e, cuts⟩ := exists_lexemes source.toList
  obtain rfl : us = ks := List.append_cancel_right (scanned.symm.trans e)
  exact d.named cuts

end Read

/-- A pattern is read from its text with nothing changed but that nests of alternatives and nests of
sequences associate to the left, so that its words stay the same, if its names are readable, its
values are written faithfully and its groups do not nest too deep. -/
theorem parse_text_eq_leftward (p : Pattern) (named : p.Named) (faithful : p.Faithful)
    (shallow : p.nesting ≤ maxNesting) : parse p.text = .ok p.leftward ∧ p.leftward.LeftNested ∧
      ∀ (α : Type) (suits : EventTerm → α → Prop),
        p.leftward.language suits = p.language suits := by
  refine ⟨?_, leftNested_leftward, fun _ _ => language_leftward⟩
  rw [parse_text_eq_ok named, reread_eq_self_iff.mpr faithful]
  exact ⟨shallow, rfl⟩

theorem parse_text_right_nested :
    parse (seq (event .any) (seq (star (alt (event ((EventTerm.ofName "A").constrain "x" "\""))
      empty)) (event .any))).text =
    .ok (seq (seq (event .any) (star (alt (event ((EventTerm.ofName "A").constrain "x" "\""))
      empty))) (event .any)) := by
  refine (parse_text_eq_leftward (seq (event .any) (seq (star (alt (event
    ((EventTerm.ofName "A").constrain "x" "\"")) empty)) (event .any))) ?_ ?_ (by decide)).1
  · have x : IsName "x" := ⟨'x', [], by decide, by decide, nofun⟩
    have dot : EventTerm.any.Named := ⟨.inr rfl, nofun⟩
    have a : ((EventTerm.ofName "A").constrain "x" "\"").Named :=
      ⟨.inl ⟨'A', [], by decide, by decide, nofun⟩, List.forall_mem_singleton.mpr x⟩
    exact List.forall_mem_cons.mpr ⟨dot, List.forall_mem_cons.mpr ⟨a,
      List.forall_mem_singleton.mpr dot⟩⟩
  · have chars : ∀ c ∈ "\"".toList, IsFaithful c := by
      have quote : "\"".toList = ['"'] := by decide
      rw [quote, List.forall_mem_singleton, IsFaithful]
      decide
    exact List.forall_mem_cons.mpr ⟨nofun, List.forall_mem_cons.mpr
      ⟨List.forall_mem_singleton.mpr chars, List.forall_mem_singleton.mpr nofun⟩⟩

/-- A pattern that has been read is read again from its text exactly if its groups, as they are
written, do not nest too deep, its alternatives and sequences associate to the left, and its values
are written faithfully. -/
theorem parse_text_eq_self_iff {source : String} (h : parse source = .ok p) :
    parse p.text = .ok p ↔ p.nesting ≤ maxNesting ∧ p.LeftNested ∧ p.Faithful := by
  rw [parse_text_eq_ok (named_of_parse h), ← leftward_eq_self_iff, ← reread_eq_self_iff]
  refine and_congr_right fun _ => ⟨fun e => ?_, fun ⟨nested, same⟩ => ?_⟩
  · have nested : p.leftward = p := by
      rw [e, leftward_leftward]
    refine ⟨nested, ?_⟩
    calc p.reread = p.leftward.reread := by rw [nested]
      _ = p.reread.leftward := mapTerms_leftward
      _ = p := e.symm
  · rw [same, nested]

theorem parse_text_of_group :
    parse "(A\x7bx: \"1\"\x7d B)* | ." = .ok (alt (star (seq
      (event ((EventTerm.ofName "A").constrain "x" "1")) (event (.ofName "B")))) (event .any)) ∧
    parse (alt (star (seq (event ((EventTerm.ofName "A").constrain "x" "1"))
      (event (.ofName "B")))) (event .any)).text = .ok (alt (star (seq
      (event ((EventTerm.ofName "A").constrain "x" "1")) (event (.ofName "B")))) (event .any)) := by
  have chars : ∀ c ∈ "1".toList, IsFaithful c := by
    have one : "1".toList = ['1'] := by decide
    have plain : Text.escape '"' '1' = ['1'] := by cbv
    rw [one, List.forall_mem_singleton, IsFaithful, plain]
    exact List.mem_cons_self
  have read : parse "(A\x7bx: \"1\"\x7d B)* | ." = .ok (alt (star (seq
      (event ((EventTerm.ofName "A").constrain "x" "1")) (event (.ofName "B")))) (event .any)) := by
    cbv
  refine ⟨read, (parse_text_eq_self_iff read).mpr ⟨by decide, ?_, ?_⟩⟩
  · exact ⟨⟨trivial, trivial, by decide⟩, trivial, by decide⟩
  · exact List.forall_mem_cons.mpr ⟨List.forall_mem_singleton.mpr chars,
      List.forall_mem_cons.mpr ⟨List.forall_mem_nil _,
        List.forall_mem_singleton.mpr (List.forall_mem_nil _)⟩⟩

/-- A term is read from its text with its values reread, so it comes back exactly if they have no null
characters, tabs, line ends and hidden characters in them. -/
theorem parse_text_of_term (named : t.Named) :
    parse t.text = .ok (event t.reread) ∧
      (parse t.text = .ok (event t) ↔ ∀ e ∈ t.constraints.toList, ∀ c ∈ e.2.toList,
        c ∉ ['\x00', '\t', '\r', '\n'] ∧ Text.isHidden c = false) := by
  have single : (event t).Named := List.forall_mem_singleton.mpr named
  have read : parse t.text = .ok (event t.reread) :=
    (parse_text_eq_ok single).mpr ⟨Nat.zero_le _, rfl⟩
  refine ⟨read, ?_⟩
  calc parse t.text = .ok (event t) ↔ t.reread = t := by rw [read, Except.ok.injEq, event.injEq]
    _ ↔ ∀ e ∈ t.constraints.toList, ∀ c ∈ e.2.toList, IsFaithful c :=
        EventTerm.reread_eq_self_iff
    _ ↔ _ := by simp only [isFaithful_iff]

lemma named_condition (value : String) : ((EventTerm.ofName "A").constrain "k" value).Named := by
  have name : IsName "A" := ⟨'A', [], by decide, by decide, nofun⟩
  have field : IsName "k" := ⟨'k', [], by decide, by decide, nofun⟩
  exact ⟨.inl name, List.forall_mem_singleton.mpr field⟩

/-- Quotes and backslashes come back. -/
theorem parse_text_of_quotes :
    let t := (EventTerm.ofName "A").constrain "k" "\"\\"
    t.Named ∧ parse t.text = .ok (event t) := by
  intro t
  have named : t.Named := named_condition _
  have value : "\"\\".toList = ['"', '\\'] := by decide
  refine ⟨named, (parse_text_of_term named).2.mpr (List.forall_mem_singleton.mpr ?_)⟩
  rw [value, List.forall_mem_cons, List.forall_mem_singleton]
  decide +kernel

/-- A tab is written as a backslash and a letter, and the letter is read. -/
theorem parse_text_of_tab :
    let t := (EventTerm.ofName "A").constrain "k" "\t"
    t.Named ∧ t.text = "A\x7bk:\"\\t\"\x7d" ∧
      parse t.text = .ok (event ((EventTerm.ofName "A").constrain "k" "t")) ∧
      parse t.text ≠ .ok (event t) := by
  intro t
  have written : t.text = "A\x7bk:\"\\t\"\x7d" := by decide +kernel
  have read : parse t.text = .ok (event ((EventTerm.ofName "A").constrain "k" "t")) := by cbv
  refine ⟨named_condition _, written, read, ?_⟩
  rw [read]
  decide

/-- A sequence within a sequence is written like one that associates to the left. -/
theorem parse_text_plus_in_sequence :
    parse "A, B+" = .ok (seq (event (.ofName "A")) (plus (event (.ofName "B")))) ∧
    (seq (event (.ofName "A")) (plus (event (.ofName "B")))).text = "A, B, B*" ∧
    parse "A, B, B*" = .ok (seq (seq (event (.ofName "A")) (event (.ofName "B")))
      (star (event (.ofName "B")))) := by
  refine ⟨?_, ?_, ?_⟩
  · cbv
  · cbv
  · cbv

end Pattern

end Interleaving
