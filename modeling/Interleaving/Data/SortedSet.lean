/-!
# Sorted sets

Finite sets that keep their elements in increasing order. Two sets with the same elements are
equal (`SortedSet.ext`), so a set can be a key, and every listing of a set is in one order.
-/

namespace Interleaving

/-- Two lists that are strictly increasing in one order are equal if they have the same members. -/
theorem eq_of_mem_iff_of_pairwise {α : Type} {r : α → α → Prop} (irrefl : ∀ {a}, ¬ r a a)
    (trans : ∀ {a b c}, r a b → r b c → r a c) {xs ys : List α} (hxs : xs.Pairwise r)
    (hys : ys.Pairwise r) (h : ∀ a, a ∈ xs ↔ a ∈ ys) : xs = ys := by
  induction xs generalizing ys with
  | nil =>
    cases ys with
    | nil => rfl
    | cons y ys => exact absurd ((h y).mpr (by simp)) (by simp)
  | cons x xs ih =>
    cases ys with
    | nil => exact absurd ((h x).mp (by simp)) (by simp)
    | cons y ys =>
      obtain ⟨hx, hxs'⟩ := List.pairwise_cons.mp hxs
      obtain ⟨hy, hys'⟩ := List.pairwise_cons.mp hys
      have hxy : x = y := by
        rcases List.mem_cons.mp ((h x).mp (by simp)) with e | hxy
        · exact e
        rcases List.mem_cons.mp ((h y).mpr (by simp)) with e | hyx
        · exact e.symm
        exact absurd (trans (hx y hyx) (hy x hxy)) irrefl
      subst hxy
      congr 1
      refine ih hxs' hys' fun k => ⟨fun hk => ?_, fun hk => ?_⟩
      · rcases List.mem_cons.mp ((h k).mp (by simp [hk])) with rfl | hk'
        · exact absurd (hx k hk) irrefl
        · exact hk'
      · rcases List.mem_cons.mp ((h k).mpr (by simp [hk])) with rfl | hk'
        · exact absurd (hy k hk) irrefl
        · exact hk'

/-- A finite set, held as its elements in increasing order. -/
structure SortedSet (κ : Type) [Ord κ] where
  /-- The elements, each once, in increasing order. -/
  toList : List κ
  sorted : toList.Pairwise (compare · · = .lt)

namespace SortedSet

/-- Puts a key at its place in an increasing list, unless it is there already. -/
def insertInto {κ : Type} [Ord κ] (k : κ) : List κ → List κ
  | [] => [k]
  | x :: xs =>
    match compare k x with
    | .lt => k :: x :: xs
    | .eq => x :: xs
    | .gt => x :: insertInto k xs

/-- Puts the key `x` among the elements of an increasing list; `rest` does so with those that come
after `x`. -/
def uniteFrom {κ : Type} [Ord κ] (x : κ) (rest : List κ → List κ) : List κ → List κ
  | [] => x :: rest []
  | y :: ys =>
    match compare x y with
    | .lt => x :: rest (y :: ys)
    | .eq => x :: rest ys
    | .gt => y :: uniteFrom x rest ys

/-- The elements of two increasing lists in one. -/
def unite {κ : Type} [Ord κ] : List κ → List κ → List κ
  | [], ys => ys
  | x :: xs, ys => uniteFrom x (unite xs) ys

variable {κ : Type} [Ord κ]

instance [DecidableEq κ] : DecidableEq (SortedSet κ) := fun s t =>
  decidable_of_iff (s.toList = t.toList)
    ⟨fun h => by cases s; cases t; cases h; rfl, fun h => h ▸ rfl⟩

/-- The set without elements. -/
def empty : SortedSet κ := ⟨[], .nil⟩

instance : Inhabited (SortedSet κ) := ⟨empty⟩
instance : EmptyCollection (SortedSet κ) := ⟨empty⟩
instance : Membership κ (SortedSet κ) := ⟨fun s k => k ∈ s.toList⟩

/-- The number of elements. -/
def size (s : SortedSet κ) : Nat := s.toList.length

/-- Whether the set has no element. -/
def isEmpty (s : SortedSet κ) : Bool := s.toList.isEmpty

/-- Takes one element out. -/
def erase [DecidableEq κ] (s : SortedSet κ) (k : κ) : SortedSet κ :=
  ⟨s.toList.filter (· != k), s.sorted.filter _⟩

/-- Whether a key is an element. -/
def contains (s : SortedSet κ) (k : κ) : Bool := s.toList.any fun x => compare k x == .eq

variable [Std.TransOrd κ] [Std.LawfulEqOrd κ]

omit [Std.TransOrd κ] in
theorem mem_insertInto {k x : κ} {xs : List κ} : x ∈ insertInto k xs ↔ x = k ∨ x ∈ xs := by
  induction xs with
  | nil => simp [insertInto]
  | cons y ys ih =>
    unfold insertInto
    split
    · simp
    · next h => cases Std.LawfulEqOrd.eq_of_compare h; simp
    · simp only [List.mem_cons, ih]
      constructor <;> (intro h; rcases h with h | h | h <;> simp [h])

theorem pairwise_insertInto {k : κ} {xs : List κ} (h : xs.Pairwise (compare · · = .lt)) :
    (insertInto k xs).Pairwise (compare · · = .lt) := by
  induction xs with
  | nil => simp [insertInto]
  | cons y ys ih =>
    obtain ⟨hy, hys⟩ := List.pairwise_cons.mp h
    unfold insertInto
    split
    · next hk =>
      refine List.pairwise_cons.mpr ⟨fun z hz => ?_, h⟩
      rcases List.mem_cons.mp hz with rfl | hz
      · exact hk
      · exact Std.TransCmp.lt_trans hk (hy z hz)
    · exact h
    · next hk =>
      refine List.pairwise_cons.mpr ⟨fun z hz => ?_, ih hys⟩
      rcases mem_insertInto.mp hz with rfl | hz
      · exact Std.OrientedCmp.lt_of_gt hk
      · exact hy z hz

/-- Adds one element. -/
def insert (s : SortedSet κ) (k : κ) : SortedSet κ :=
  ⟨insertInto k s.toList, pairwise_insertInto s.sorted⟩

omit [Std.TransOrd κ] in
theorem mem_uniteFrom {x : κ} {xs : List κ} {rest : List κ → List κ}
    (hrest : ∀ zs a, a ∈ rest zs ↔ a ∈ xs ∨ a ∈ zs) {ys : List κ} {a : κ} :
    a ∈ uniteFrom x rest ys ↔ a ∈ x :: xs ∨ a ∈ ys := by
  induction ys with
  | nil => simp [uniteFrom, hrest]
  | cons y ys ih =>
    unfold uniteFrom
    split
    · simp only [List.mem_cons, hrest, or_assoc]
    · next h =>
      cases Std.LawfulEqOrd.eq_of_compare h
      simp only [List.mem_cons, hrest]
      constructor
      · rintro (h | h | h) <;> simp [h]
      · rintro ((h | h) | h | h) <;> simp [h]
    · simp only [List.mem_cons] at ih ⊢
      rw [ih, or_left_comm]

omit [Std.TransOrd κ] in
theorem mem_unite {xs ys : List κ} {a : κ} : a ∈ unite xs ys ↔ a ∈ xs ∨ a ∈ ys := by
  induction xs generalizing ys a with
  | nil => simp [unite]
  | cons x xs ih => exact mem_uniteFrom fun zs a => ih

theorem pairwise_uniteFrom {x : κ} {xs : List κ} {rest : List κ → List κ}
    (hx : ∀ a ∈ xs, compare x a = .lt) (hmem : ∀ zs a, a ∈ rest zs ↔ a ∈ xs ∨ a ∈ zs)
    (hrest : ∀ zs, zs.Pairwise (compare · · = .lt) → (rest zs).Pairwise (compare · · = .lt))
    {ys : List κ} (hys : ys.Pairwise (compare · · = .lt)) :
    (uniteFrom x rest ys).Pairwise (compare · · = .lt) := by
  induction ys with
  | nil =>
    refine List.pairwise_cons.mpr ⟨fun a ha => ?_, hrest [] .nil⟩
    exact hx a (by simpa using (hmem [] a).mp ha)
  | cons y ys ih =>
    obtain ⟨hy, hys'⟩ := List.pairwise_cons.mp hys
    unfold uniteFrom
    split
    · next h =>
      refine List.pairwise_cons.mpr ⟨fun a ha => ?_, hrest _ hys⟩
      rcases (hmem _ a).mp ha with ha | ha
      · exact hx a ha
      rcases List.mem_cons.mp ha with rfl | ha
      · exact h
      · exact Std.TransCmp.lt_trans h (hy a ha)
    · next h =>
      cases Std.LawfulEqOrd.eq_of_compare h
      refine List.pairwise_cons.mpr ⟨fun a ha => ?_, hrest _ hys'⟩
      exact ((hmem _ a).mp ha).elim (hx a) (hy a)
    · next h =>
      have hyx : compare y x = .lt := Std.OrientedCmp.lt_of_gt h
      refine List.pairwise_cons.mpr ⟨fun a ha => ?_, ih hys'⟩
      rcases (mem_uniteFrom hmem).mp ha with ha | ha
      · rcases List.mem_cons.mp ha with rfl | ha
        · exact hyx
        · exact Std.TransCmp.lt_trans hyx (hx a ha)
      · exact hy a ha

theorem pairwise_unite {xs ys : List κ} (hxs : xs.Pairwise (compare · · = .lt))
    (hys : ys.Pairwise (compare · · = .lt)) : (unite xs ys).Pairwise (compare · · = .lt) := by
  induction xs generalizing ys with
  | nil => exact hys
  | cons x xs ih =>
    obtain ⟨hx, hxs⟩ := List.pairwise_cons.mp hxs
    exact pairwise_uniteFrom hx (fun _ _ => mem_unite) (fun _ hzs => ih hxs hzs) hys

/-- The set of the elements of a list. -/
def ofList (ks : List κ) : SortedSet κ := ks.foldl insert empty

/-- The elements of either set. -/
def union (s t : SortedSet κ) : SortedSet κ :=
  ⟨unite s.toList t.toList, pairwise_unite s.sorted t.sorted⟩

omit [Std.TransOrd κ] [Std.LawfulEqOrd κ] in
@[simp] theorem mem_toList {s : SortedSet κ} {k : κ} : k ∈ s.toList ↔ k ∈ s := Iff.rfl

omit [Std.TransOrd κ] [Std.LawfulEqOrd κ] in
@[simp] theorem isEmpty_iff {s : SortedSet κ} : s.isEmpty = true ↔ ∀ k, k ∉ s :=
  List.isEmpty_iff.trans List.eq_nil_iff_forall_not_mem

omit [Std.TransOrd κ] [Std.LawfulEqOrd κ] in
@[simp] theorem not_mem_empty {k : κ} : k ∉ (empty : SortedSet κ) := List.not_mem_nil

@[simp] theorem mem_insert {s : SortedSet κ} {k x : κ} : x ∈ s.insert k ↔ x = k ∨ x ∈ s :=
  mem_insertInto

@[simp] theorem mem_ofList {ks : List κ} {x : κ} : x ∈ ofList ks ↔ x ∈ ks := by
  suffices h : ∀ s : SortedSet κ, x ∈ ks.foldl insert s ↔ x ∈ ks ∨ x ∈ s by simpa [ofList] using h empty
  induction ks with
  | nil => simp
  | cons k ks ih =>
    intro s
    rw [List.foldl_cons, ih, mem_insert, List.mem_cons]
    constructor
    · rintro (h | h | h) <;> simp [h]
    · rintro ((h | h) | h) <;> simp [h]

@[simp] theorem mem_union {s t : SortedSet κ} {x : κ} : x ∈ s.union t ↔ x ∈ s ∨ x ∈ t := mem_unite

omit [Std.TransOrd κ] [Std.LawfulEqOrd κ] in
@[simp] theorem mem_erase [DecidableEq κ] {s : SortedSet κ} {k x : κ} :
    x ∈ s.erase k ↔ x ∈ s ∧ x ≠ k := by
  show x ∈ s.toList.filter (· != k) ↔ _
  simp

omit [Std.TransOrd κ] in
@[simp] theorem contains_iff {s : SortedSet κ} {k : κ} : s.contains k = true ↔ k ∈ s := by
  simp only [contains, List.any_eq_true, beq_iff_eq]
  constructor
  · rintro ⟨x, hx, hk⟩
    exact Std.LawfulEqOrd.eq_of_compare hk ▸ hx
  · exact fun h => ⟨k, h, Std.ReflCmp.compare_self⟩

omit [Std.LawfulEqOrd κ] in
theorem nodup_toList (s : SortedSet κ) : s.toList.Nodup := by
  refine s.sorted.imp fun {a b} lt eq => ?_
  have same : compare b b = .eq := Std.ReflCmp.compare_self
  rw [eq, same] at lt
  cases lt

/-- Sets with the same elements are equal. -/
theorem ext {s t : SortedSet κ} (h : ∀ k, k ∈ s ↔ k ∈ t) : s = t := by
  obtain ⟨xs, hxs⟩ := s
  obtain ⟨ys, hys⟩ := t
  cases eq_of_mem_iff_of_pairwise (by simp) Std.TransCmp.lt_trans hxs hys h
  rfl

end SortedSet

end Interleaving
