import Mathlib.Data.List.TakeWhile
import Mathlib.Tactic.Common
import Interleaving.Proofs.Pattern.Cuts

/-!
# Where tokens stand

The tokens of a text stand in it one after the other, with nothing but blanks between them, and the
characters of each are read as that token also when they stand alone (`Token.Tiling`). So the ranges
of the tokens come in their order and do not overlap, and leave out nothing but blanks
(`Token.scan_tiles`).
-/

namespace Interleaving.Token

variable {c : Char} {cs : List Char} {pos : Nat} {tokens : List Token}

section Bytes

lemma byteLength_eq (cs : List Char) : byteLength cs = (String.ofList cs).utf8ByteSize := by
  suffices h : ∀ n, cs.foldl (fun n c => n + c.utf8Size) n = n + (String.ofList cs).utf8ByteSize by
    rw [byteLength, h, Nat.zero_add]
  induction cs with
  | nil => exact fun n => rfl
  | cons c cs ih =>
    intro n
    have parts : String.ofList (c :: cs) = String.singleton c ++ String.ofList cs := by
      rw [String.singleton_eq_ofList, ← String.ofList_append]
      rfl
    rw [List.foldl_cons, ih, parts, String.utf8ByteSize_append, String.utf8ByteSize_singleton,
      Nat.add_assoc]

lemma byteLength_append (cs ds : List Char) :
    byteLength (cs ++ ds) = byteLength cs + byteLength ds := by
  rw [byteLength_eq, byteLength_eq, byteLength_eq, String.ofList_append, String.utf8ByteSize_append]

lemma byteLength_cons_pos (c : Char) (cs : List Char) : 0 < byteLength (c :: cs) := by
  have parts : byteLength (c :: cs) = byteLength [c] + byteLength cs := byteLength_append [c] cs
  have one : byteLength [c] = c.utf8Size := Nat.zero_add _
  have := c.utf8Size_pos
  omega

end Bytes

/-- The end of a text of so many bytes. -/
def endAt (pos : Nat) : Token := ⟨.stop, ⟨pos, pos⟩⟩

/-- The characters are a token of this kind and nothing else. -/
structure IsLexeme (kind : TokenKind) (lexeme : List Char) : Prop where
  ne_stop : kind ≠ .stop
  byteLength_pos : 0 < byteLength lexeme
  scanFrom_eq : scanFrom 0 lexeme = [⟨kind, ⟨0, byteLength lexeme⟩⟩, endAt (byteLength lexeme)]

/-- Tokens that fill a text which begins at byte `pos`: the characters of each stand alone for it, and
between them are blanks. -/
inductive Tiling : Nat → List Char → List Token → Prop where
  | stop {pos : Nat} {blanks : List Char} :
    (∀ b ∈ blanks, Text.isBlank b = true) → Tiling pos blanks [endAt (pos + byteLength blanks)]
  | token {pos : Nat} {blanks lexeme rest : List Char} {kind : TokenKind} {tokens : List Token} :
    (∀ b ∈ blanks, Text.isBlank b = true) → IsLexeme kind lexeme →
    Tiling (pos + byteLength blanks + byteLength lexeme) rest tokens →
    Tiling pos (blanks ++ lexeme ++ rest)
      (⟨kind, ⟨pos + byteLength blanks, pos + byteLength blanks + byteLength lexeme⟩⟩ :: tokens)

lemma scanFrom_nil : scanFrom pos [] = [endAt pos] := by
  rw [scanFrom]
  rfl

/-- A token that is cut off a text is read again when it stands alone. -/
lemma isLexeme_cut (token : Text.isBlank c = false) :
    IsLexeme (cut c cs).kind (cut c cs).lexeme := by
  obtain ⟨lexeme, eq, -⟩ := cut_append_rest c cs
  constructor
  case ne_stop =>
    intro stop
    have isCut : IsCut (cut c cs).kind := isCut_cut
    rw [stop] at isCut
    exact isCut
  case byteLength_pos =>
    rw [eq]
    exact byteLength_cons_pos c lexeme
  case scanFrom_eq =>
    have alone : scanFrom 0 ([] ++ c :: (lexeme ++ [])) = _ :=
      scanFrom_append nofun token eq (fun more => absurd rfl more) nofun
    rw [List.append_nil, List.nil_append, ← eq, scanFrom_nil] at alone
    simpa [byteLength] using alone

/-- The tokens that are read fill the text. -/
lemma tiling_scanFrom (pos : Nat) (cs : List Char) : Tiling pos cs (scanFrom pos cs) := by
  fun_induction scanFrom pos cs with
  | case1 pos cs start h =>
    have blank := List.dropWhile_eq_nil_iff.mp h
    have all : cs.takeWhile Text.isBlank = cs := List.takeWhile_eq_self_iff.mpr blank
    show Tiling pos cs [endAt (pos + byteLength (cs.takeWhile Text.isBlank))]
    rw [all]
    exact .stop blank
  | case2 pos cs start c rest h token stop ih =>
    have blank : ∀ b ∈ cs.takeWhile Text.isBlank, Text.isBlank b = true :=
      List.all_eq_true.mp List.all_takeWhile
    have first : Text.isBlank c = false := by
      have not := List.head?_dropWhile_not Text.isBlank cs
      rw [h] at not
      exact not
    obtain ⟨lexeme, eq, parted⟩ := cut_append_rest c rest
    have whole : cs.takeWhile Text.isBlank ++ token.lexeme ++ token.rest = cs := by
      rw [List.append_assoc, eq, List.cons_append, parted, ← h, List.takeWhile_append_dropWhile]
    have tiling := Tiling.token blank (isLexeme_cut first) ih
    rwa [whole] at tiling

/-- A character stands in the first part of a text or in the second. -/
lemma append_cons_cases {front back before after : List Char}
    (h : front ++ back = before ++ c :: after) :
    (∃ own, front = before ++ c :: own) ∨ ∃ between, before = front ++ between ∧
      back = between ++ c :: after := by
  obtain ⟨between, rfl, eq⟩ | ⟨own, rfl, eq⟩ := List.append_eq_append_iff.mp h
  · exact .inr ⟨between, rfl, eq⟩
  · cases own with
    | nil => exact .inr ⟨[], by simp, eq.symm⟩
    | cons d own =>
      obtain ⟨rfl, -⟩ := List.cons.inj eq
      exact .inl ⟨own, rfl⟩

namespace Tiling

lemma exists_concat (h : Tiling pos cs tokens) : ∃ before,
    tokens = before ++ [endAt (pos + byteLength cs)] ∧ ∀ t ∈ before, t.kind ≠ .stop := by
  induction h with
  | stop => exact ⟨[], rfl, nofun⟩
  | @token pos blanks lexeme rest kind tokens _ alone _ ih =>
    obtain ⟨before, rfl, proper⟩ := ih
    refine ⟨⟨kind, ⟨pos + byteLength blanks, pos + byteLength blanks + byteLength lexeme⟩⟩ :: before,
      ?_, List.forall_mem_cons.mpr ⟨alone.ne_stop, proper⟩⟩
    rw [byteLength_append, byteLength_append, List.cons_append]
    simp only [Nat.add_assoc]

lemma pos_le (h : Tiling pos cs tokens) : ∀ t ∈ tokens, pos ≤ t.span.start := by
  induction h with
  | stop =>
    intro t mem
    obtain rfl := List.mem_singleton.mp mem
    exact Nat.le_add_right _ _
  | token _ _ _ ih =>
    refine List.forall_mem_cons.mpr ⟨Nat.le_add_right _ _, fun t mem => ?_⟩
    have := ih t mem
    omega

lemma pairwise (h : Tiling pos cs tokens) :
    tokens.Pairwise fun t u => t.span.stop ≤ u.span.start := by
  induction h with
  | stop => exact List.pairwise_singleton ..
  | token _ _ rest ih => exact List.pairwise_cons.mpr ⟨rest.pos_le, ih⟩

/-- A token covers a part of the text that is read as this token when it stands alone. -/
lemma exists_lexeme (h : Tiling pos cs tokens) : ∀ t ∈ tokens, t.kind ≠ .stop →
    ∃ before lexeme after, cs = before ++ lexeme ++ after ∧ IsLexeme t.kind lexeme ∧
      t.span = ⟨pos + byteLength before, pos + byteLength before + byteLength lexeme⟩ := by
  induction h with
  | stop =>
    intro t mem proper
    obtain rfl := List.mem_singleton.mp mem
    exact absurd rfl proper
  | @token pos blanks lexeme rest kind tokens blank alone _ ih =>
    refine List.forall_mem_cons.mpr ⟨fun _ => ⟨blanks, lexeme, rest, rfl, alone, rfl⟩, ?_⟩
    intro t mem proper
    obtain ⟨before, own, after, rfl, alone', span⟩ := ih t mem proper
    refine ⟨blanks ++ lexeme ++ before, own, after, by simp, alone', ?_⟩
    rw [span, byteLength_append, byteLength_append]
    simp only [Nat.add_assoc]

/-- A character that no token covers is a blank. -/
lemma covers {before after : List Char} (h : Tiling pos cs tokens)
    (split : cs = before ++ c :: after) :
    (∃ t ∈ tokens, t.span.start ≤ pos + byteLength before ∧ pos + byteLength before < t.span.stop) ∨
      Text.isBlank c = true := by
  induction h generalizing before with
  | stop blank => exact .inr (blank c (by simp [split]))
  | @token pos blanks lexeme rest kind tokens blank alone _ ih =>
    obtain ⟨front, split⟩ | ⟨between, rfl, later⟩ := append_cons_cases split
    · obtain ⟨_, rfl⟩ | ⟨own, rfl, rfl⟩ := append_cons_cases split
      · exact .inr (blank c (by simp))
      · refine .inl ⟨_, List.mem_cons_self, ?_⟩
        have pos := byteLength_cons_pos c front
        simp only [byteLength_append]
        omega
    · have covered := ih later
      simp only [byteLength_append, ← Nat.add_assoc] at covered ⊢
      exact covered.imp_left fun ⟨t, mem, inside⟩ => ⟨t, List.mem_cons_of_mem _ mem, inside⟩

end Tiling

/-- The part of a text between two others begins and ends between characters. -/
lemma exists_extract_eq {source before part after : String} (split : source = before ++ part ++ after)
    (pos : 0 < part.utf8ByteSize) : ∃ first last : source.Pos,
      first.offset.byteIdx = before.utf8ByteSize ∧
      last.offset.byteIdx = before.utf8ByteSize + part.utf8ByteSize ∧
      first < last ∧ source.extract first last = part := by
  have first := String.Pos.splits_ofEqAppend (split.trans String.append_assoc)
  have last := String.Pos.splits_ofEqAppend split
  obtain ⟨le, slice⟩ := String.copy_slice_eq_iff_splits.mpr ⟨before, after, first, last⟩
  have ne : part ≠ "" := by
    rintro rfl
    exact Nat.lt_irrefl 0 pos
  refine ⟨_, _, ?_, ?_, (first.lt_iff_exists_eq_append last).mpr ⟨part, ne, rfl, rfl⟩, ?_⟩
  · rw [first.offset_eq_rawEndPos]
    rfl
  · rw [last.offset_eq_rawEndPos, ← String.utf8ByteSize_append]
    rfl
  · rw [String.extract_eq_copy_slice _ _ le, slice]

/-- The tokens of a text end with the one that stands for its end. The others cover parts of the text
in turn that do not overlap, and each part is read as the token that covers it when it stands alone.
What no token covers is blank. -/
theorem scan_tiles (source : String) : ∃ tokens,
    scan source = tokens ++ [endAt source.utf8ByteSize] ∧
    (∀ t ∈ tokens, t.kind ≠ .stop) ∧
    (scan source).Pairwise (fun t u => t.span.stop ≤ u.span.start) ∧
    (∀ t ∈ tokens, ∃ first last : source.Pos,
      t.span = ⟨first.offset.byteIdx, last.offset.byteIdx⟩ ∧ first < last ∧
      let part := source.extract first last
      scan part = [⟨t.kind, ⟨0, part.utf8ByteSize⟩⟩, endAt part.utf8ByteSize]) ∧
    ∀ (p : source.Pos) (inside : p ≠ source.endPos),
      (∃ t ∈ scan source, t.span.start ≤ p.offset.byteIdx ∧ p.offset.byteIdx < t.span.stop) ∨
        Text.isBlank (p.get inside) = true := by
  have tiling : Tiling 0 source.toList (scan source) := tiling_scanFrom 0 source.toList
  obtain ⟨tokens, eq, proper⟩ := tiling.exists_concat
  have size : byteLength source.toList = source.utf8ByteSize := by
    rw [byteLength_eq, String.ofList_toList]
  rw [size, Nat.zero_add] at eq
  refine ⟨tokens, eq, proper, tiling.pairwise, fun t mem => ?_, fun p inside => ?_⟩
  · obtain ⟨before, lexeme, after, split, alone, span⟩ :=
      tiling.exists_lexeme t (by simp [eq, mem]) (proper t mem)
    have split : source = .ofList before ++ .ofList lexeme ++ .ofList after := by
      rw [← String.ofList_append, ← String.ofList_append, ← split, String.ofList_toList]
    obtain ⟨first, last, start, stop, lt, extract⟩ :=
      exists_extract_eq split (byteLength_eq lexeme ▸ alone.byteLength_pos)
    refine ⟨first, last, ?_, lt, ?_⟩
    · rw [span, start, stop, Nat.zero_add, byteLength_eq, byteLength_eq]
    · simp only [extract]
      rw [scan, String.toList_ofList, alone.scanFrom_eq, byteLength_eq]
  · have splits := p.splits_next_right inside
    have split := congrArg String.toList splits.eq_append
    rw [String.toList_append, String.toList_append, String.toList_singleton] at split
    have covered := tiling.covers split
    rwa [byteLength_eq, String.ofList_toList, Nat.zero_add, ← String.byteIdx_rawEndPos,
      ← splits.offset_eq_rawEndPos] at covered

end Interleaving.Token
