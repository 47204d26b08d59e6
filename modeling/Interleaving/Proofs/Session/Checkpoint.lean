import Mathlib
import Interleaving.Proofs.Files.Tree
import Interleaving.Proofs.Json.Encoding
import Interleaving.Session.Checkpoint

/-!
# Checkpoints are read back

Every checkpoint is read back from its text, whatever its strings hold and whichever of its settings
are given. So it is loaded again from the file to which it was saved.
-/

namespace Interleaving

open Json

lemma StrategyKind.ofText?_text (k : StrategyKind) : ofText? k.text = some k := by
  cases k <;> rfl

lemma FeedbackSignal.ofText?_text (s : FeedbackSignal) : ofText? s.text = some s := by
  cases s <;> rfl

lemma undoes_option_uint64 : Undoes (optional? uint64?) (ofOption ofUInt64) :=
  undoes_uint64.optional nofun

lemma undoes_option_str : Undoes (optional? str?) (ofOption str) :=
  undoes_str.optional nofun

lemma undoes_strategyKind :
    Undoes (choice? StrategyKind.ofText?) (fun k : StrategyKind => str k.text) :=
  undoes_choice StrategyKind.ofText?_text

lemma undoes_feedbackSignal :
    Undoes (choice? FeedbackSignal.ofText?) (fun s : FeedbackSignal => str s.text) :=
  undoes_choice FeedbackSignal.ofText?_text

lemma Config.undoes_toJson : Undoes ofJson? toJson where
  plain c := plain_record (by
    simp [undoes_uint64.plain, undoes_str.plain, undoes_bool.plain, undoes_option_uint64.plain,
      undoes_option_str.plain])
  read_write c := by
    rw [ofJson?, toJson, record?_zip (by decide) rfl]
    -- One step for each setting, in the order in which they are asked for.
    refine field_then rfl (undoes_uint64.read_write _) ?_
    refine field_then rfl (undoes_uint64.read_write _) ?_
    refine field_then rfl (undoes_strategyKind.read_write _) ?_
    refine field_then rfl (undoes_uint64.read_write _) ?_
    refine field_then rfl (undoes_uint64.read_write _) ?_
    refine field_then rfl (undoes_uint64.read_write _) ?_
    refine field_then rfl (undoes_option_str.read_write _) ?_
    refine field_then rfl (undoes_bool.read_write _) ?_
    refine field_then rfl (undoes_bool.read_write _) ?_
    refine field_then rfl (undoes_option_uint64.read_write _) ?_
    refine field_then rfl (undoes_option_uint64.read_write _) ?_
    refine field_then rfl (undoes_option_str.read_write _) ?_
    refine field_then rfl (undoes_feedbackSignal.read_write _) ?_
    exact field_then rfl (undoes_option_str.read_write _) rfl

lemma EventCoverage.undoes_toJson : Undoes ofJson? toJson where
  plain c := by
    refine .obj ?_
    simp only [List.forall_mem_cons, List.not_mem_nil, false_implies, implies_true, and_true]
    exact .obj (List.forall_mem_map.mpr fun e _ => undoes_uint32.plain e.2)
  read_write c := by
    have counts : (c.hits.toList.map fun e => (e.1, ofUInt32 e.2)).mapM
        (fun e => e.2.uint32?.map (e.1, ·)) = some c.hits.toList :=
      mapM_map_eq_some (fun e => by simp [undoes_uint32.read_write]) _
    simp [ofJson?, toJson, record?, required?, obj?, counts, SortedMap.ofList_toList]

lemma BugReport.undoes_toJson : Undoes ofJson? toJson where
  plain b := plain_record (by simp [undoes_uint64.plain, undoes_str.plain])
  read_write b := by
    rw [ofJson?, toJson, record?_zip (by decide) rfl]
    refine required_then rfl (undoes_uint64.read_write _) ?_
    refine required_then rfl (undoes_uint64.read_write _) ?_
    refine required_then rfl (undoes_str.read_write _) ?_
    refine required_then rfl (undoes_uint64.read_write _) ?_
    refine required_then rfl (undoes_str.read_write _) ?_
    exact required_then rfl (undoes_str.read_write _) rfl

namespace Checkpoint

lemma undoes_toJson : Undoes ofJson? toJson where
  plain c := plain_record (by
    simp [Config.undoes_toJson.plain, EventCoverage.undoes_toJson.plain,
      BugReport.undoes_toJson.list.plain, undoes_uint64.plain])
  read_write c := by
    rw [ofJson?, toJson, record?_zip (by decide) rfl]
    refine required_then rfl (Config.undoes_toJson.read_write _) ?_
    refine required_then rfl (EventCoverage.undoes_toJson.read_write _) ?_
    refine required_then rfl (BugReport.undoes_toJson.list.read_write _) ?_
    refine required_then rfl (undoes_uint64.read_write _) ?_
    exact required_then rfl (undoes_uint64.read_write _) rfl

lemma parse?_text (c : Checkpoint) : parse? c.text = some c :=
  undoes_toJson.bind_parse?_pretty c

section Files

variable {ω : Type} {store : FileStore (StateM ω)} {path : String} {c : Checkpoint} {w w' : ω}

lemma save_eq_ok_iff :
    c.save store path w = (.ok (), w') ↔ store.write path c.text w = (.ok (), w') := by
  have saved : c.save store path w =
    ((store.write path c.text w).1.mapError .file, (store.write path c.text w).2) := rfl
  rw [saved]
  generalize store.write path c.text w = written
  obtain ⟨error | ok, w''⟩ := written
  · exact ⟨nofun, nofun⟩
  · constructor <;> (rintro ⟨⟩; rfl)

lemma load_of_read {text : String} (read : (store.read path w).1 = .ok text)
    (parsed : parse? text = some c) : (load store path w).1 = .ok c := by
  have bind_apply : ∀ {α β : Type} {x : StateM ω α} {next : α → StateM ω β},
    (x >>= next) w = next (x w).1 (x w).2 := rfl
  rw [load, bind_apply, read]
  dsimp only
  rw [parsed]
  rfl

end Files

/-- A checkpoint is read back from its text. Where files hold what was written to them, it is loaded
from the file to which it was saved. -/
theorem reads_back (c : Checkpoint) :
    parse? c.text = some c ∧
      ∀ {ω : Type} {store : FileStore (StateM ω)}, store.ReadsBack →
        ∀ {path : String} {w w' : ω}, c.save store path w = (.ok (), w') →
          (load store path w').1 = .ok c := by
  refine ⟨parse?_text c, ?_⟩
  intro ω store kept path w w' saved
  have read := kept (save_eq_ok_iff.mp saved)
  exact load_of_read read (parse?_text c)

/-- Quotes, control characters and the largest numbers in a file of a tree in memory. -/
theorem reads_back_from_tree :
    let c : Checkpoint :=
      { config :=
          { Config.standard with
            strategy := .twoStageFeedbackPct, pattern := some "\"<a\\b>\"\n\x00",
            timeoutSecs := some 18446744073709551615, feedbackSignal := .prefixBranching }
        coverage := ⟨.ofList [("server:Write", 4294967295), ("", 0)]⟩
        bugs := [⟨0, 17, "read 201\tafter 104", 14, "random", "(0)\n3\n"⟩]
        iterationsCompleted := 40
        totalSteps := 900 }
    FileTree.store.ReadsBack ∧ parse? c.text = some c ∧
      ∃ t, c.save FileTree.store "a" FileTree.empty = (.ok (), t) ∧
        (load FileTree.store "a" t).1 = .ok c := by
  intro c
  have absolute : "a".startsWith "/" = false := by
    rw [← Bool.not_eq_true, String.startsWith_string_iff]
    decide
  have slash : "a".endsWith "/" = false := by
    rw [String.endsWith_eq_endsWith_toSlice, ← Bool.not_eq_true, String.Slice.endsWith_string_iff,
      String.copy_toSlice]
    decide
  have names : "a".splitOn "/" = ["a"] := by cbv
  have parsed : TreePath.parse "a" = .ok ⟨false, ["a"], false⟩ := by
    rw [TreePath.parse, absolute, slash, names]
    decide
  have written : FileTree.empty.write "a" c.text =
      .ok (FileTree.empty.withFile ["a"] c.text) := by
    rw [FileTree.write, parsed]
    rfl
  have saved : c.save FileTree.store "a" FileTree.empty =
      (.ok (), FileTree.empty.withFile ["a"] c.text) :=
    save_eq_ok_iff.mpr (FileTree.store_write_eq_ok_iff.mpr written)
  obtain ⟨read, loaded⟩ := reads_back c
  exact ⟨FileTree.readsBack_store, read, _, saved, loaded FileTree.readsBack_store saved⟩

end Checkpoint

end Interleaving
