import Interleaving.Files.Tree
import Interleaving.Proofs.Except

/-!
# Files are read back as they were written

What is asked of a place where files are kept, and that a tree in memory gives it: putting a file
somewhere moves no directory out of the way of its own path (`FileTree.readsBack_store`).
-/

namespace Interleaving

/-- A file that was written with success holds what was written to it. -/
def FileStore.ReadsBack {ω : Type} (store : FileStore (StateM ω)) : Prop :=
  ∀ {path text : String} {w w' : ω}, store.write path text w = (.ok (), w') →
    (store.read path w').1 = .ok text

namespace FileTree

variable {t : FileTree} {place q : Place} {text : String}

/-- The tree with a file put at a place. -/
def withFile (t : FileTree) (place : Place) (text : String) : FileTree :=
  ⟨t.entries.insert (key place) (some text)⟩

lemma kind?_withFile : (t.withFile place text).kind? q =
    if isGiven q then some .directory
    else if key q = key place then some (.file text) else t.kind? q := by
  unfold kind?
  rw [withFile, SortedMap.get?_insert]
  by_cases given : isGiven q
  · simp [given]
  · by_cases same : key q = key place <;> simp [given, same]

lemma isGiven_eq_false (free : t.kind? place ≠ some .directory) : isGiven place = false := by
  cases given : isGiven place with
  | false => rfl
  | true => exact absurd (by rw [kind?, if_pos given]) free

/-- A file takes the place of no directory. -/
lemma kind?_withFile_of_directory (free : t.kind? place ≠ some .directory)
    (directory : t.kind? q = some .directory) :
    (t.withFile place text).kind? q = some .directory := by
  rw [kind?_withFile]
  split
  · rfl
  · next not_given =>
    have other : key q ≠ key place := by
      intro same
      rw [kind?, if_neg not_given, same] at directory
      rw [kind?, isGiven_eq_false free] at free
      exact free directory
    rw [if_neg other, directory]

lemma step_withFile (free : t.kind? place ≠ some .directory) {name : String} {r : Place}
    (h : t.step q name = .ok r) : (t.withFile place text).step q name = .ok r := by
  have directory : t.kind? q = some .directory := by
    unfold step at h
    split at h
    · cases h
    · cases h
    · next directory => exact directory
  rw [step, directory] at h
  rw [step, kind?_withFile_of_directory free directory]
  exact h

/-- The way to a place leads over directories, and they stay where they are. -/
lemma foldlM_step_withFile (free : t.kind? place ≠ some .directory) {names : List String}
    {r : Place} (h : names.foldlM t.step q = .ok r) :
    names.foldlM (t.withFile place text).step q = .ok r := by
  induction names generalizing q with
  | nil => exact h
  | cons name names ih =>
    rw [List.foldlM_cons] at *
    obtain ⟨next, stepped, h⟩ := bind_eq_ok.mp h
    exact bind_eq_ok.mpr ⟨next, step_withFile free stepped, ih h⟩

/-- What a write with success has found and done. -/
lemma of_write {path : String} {t' : FileTree} (h : t.write path text = .ok t') :
    ∃ p place, TreePath.parse path = .ok p ∧ t.locate p = .ok place ∧
      t.kind? place ≠ some .directory ∧ p.slash = false ∧ t' = t.withFile place text := by
  obtain ⟨p, parsed, h⟩ := bind_eq_ok.mp h
  obtain ⟨place, located, h⟩ := bind_eq_ok.mp h
  split at h
  · cases h
  · next free =>
    split at h
    · cases h
    · next slash =>
      cases h
      exact ⟨p, place, parsed, located, free, Bool.eq_false_iff.mpr slash, rfl⟩

theorem read_of_write {path : String} {t' : FileTree} (h : t.write path text = .ok t') :
    t'.read path = .ok text := by
  obtain ⟨p, place, parsed, located, free, slash, rfl⟩ := of_write h
  have kind : (t.withFile place text).kind? place = some (.file text) := by
    simp [kind?_withFile, isGiven_eq_false free]
  refine bind_eq_ok.mpr ⟨p, parsed, bind_eq_ok.mpr ⟨place, foldlM_step_withFile free located, ?_⟩⟩
  rw [kind, slash]
  rfl

lemma store_write_eq_ok_iff {path : String} {t' : FileTree} :
    store.write path text t = (.ok (), t') ↔ t.write path text = .ok t' := by
  show t.attempt (t.write path text) = (.ok (), t') ↔ _
  cases t.write path text <;> simp [attempt]

/-- A tree gives back what is written to it. -/
theorem readsBack_store : store.ReadsBack :=
  fun written => read_of_write (store_write_eq_ok_iff.mp written)

end FileTree

end Interleaving
