import Interleaving.Data.SortedSet

/-!
# Sorted maps

Finite maps that list their entries in increasing order of the keys. A map is determined by its
look-ups (`SortedMap.ext`).
-/

namespace Interleaving

/-- A finite map, held as its entries in increasing order of the keys. -/
structure SortedMap (κ β : Type) [Ord κ] where
  /-- The entries, one for each key, in increasing order of the keys. -/
  toList : List (κ × β)
  sorted : toList.Pairwise (compare ·.1 ·.1 = .lt)

namespace SortedMap

/-- Gives the key `k` the value that `f` makes of its present one. -/
def alterIn {κ β : Type} [Ord κ] (k : κ) (f : Option β → β) : List (κ × β) → List (κ × β)
  | [] => [(k, f none)]
  | (x, b) :: rest =>
    match compare k x with
    | .lt => (k, f none) :: (x, b) :: rest
    | .eq => (x, f (some b)) :: rest
    | .gt => (x, b) :: alterIn k f rest

/-- The value that a list of entries holds at a key. -/
def find? {κ β : Type} [Ord κ] (k : κ) : List (κ × β) → Option β
  | [] => none
  | (x, b) :: rest => if compare k x == .eq then some b else find? k rest

/-- Compares the value `b` at the key `x`, and all values of the second list before it, with what
the other list holds at their keys; `rest` compares what comes after `x`. -/
def relatesFrom {κ β γ : Type} [Ord κ] (p : Option β → Option γ → Bool) (x : κ) (b : β)
    (rest : List (κ × γ) → Bool) : List (κ × γ) → Bool
  | [] => p (some b) none && rest []
  | (y, c) :: ys =>
    match compare x y with
    | .lt => p (some b) none && rest ((y, c) :: ys)
    | .eq => p (some b) (some c) && rest ys
    | .gt => p none (some c) && relatesFrom p x b rest ys

/-- Compares what two lists of entries hold at each of their keys. -/
def relatesIn {κ β γ : Type} [Ord κ] (p : Option β → Option γ → Bool) :
    List (κ × β) → List (κ × γ) → Bool
  | [], ys => ys.all fun e => p none (some e.2)
  | (x, b) :: xs, ys => relatesFrom p x b (relatesIn p xs) ys

variable {κ β : Type} [Ord κ]

instance [DecidableEq κ] [DecidableEq β] : DecidableEq (SortedMap κ β) := fun s t =>
  decidable_of_iff (s.toList = t.toList)
    ⟨fun h => by cases s; cases t; cases h; rfl, fun h => h ▸ rfl⟩

/-- The map without entries. -/
def empty : SortedMap κ β := ⟨[], .nil⟩

instance : Inhabited (SortedMap κ β) := ⟨empty⟩
instance : EmptyCollection (SortedMap κ β) := ⟨empty⟩

/-- The number of entries. -/
def size (m : SortedMap κ β) : Nat := m.toList.length

/-- Whether the map has no entry. -/
def isEmpty (m : SortedMap κ β) : Bool := m.toList.isEmpty

/-- The value at a key. -/
def get? (m : SortedMap κ β) (k : κ) : Option β := find? k m.toList

/-- Whether a key has a value. -/
def contains (m : SortedMap κ β) (k : κ) : Bool := (m.get? k).isSome

/-- The keys, in increasing order. -/
def keys (m : SortedMap κ β) : List κ := m.toList.map (·.1)

/-- The values, in the order of their keys. -/
def values (m : SortedMap κ β) : List β := m.toList.map (·.2)

/-- Whether `p` holds between the values of two maps at every key that one of them has. -/
def relates {γ : Type} (p : Option β → Option γ → Bool) (m : SortedMap κ β) (n : SortedMap κ γ) :
    Bool :=
  relatesIn p m.toList n.toList

/-- The entries that satisfy `p`. -/
def filter (p : κ → β → Bool) (m : SortedMap κ β) : SortedMap κ β :=
  ⟨m.toList.filter fun e => p e.1 e.2, m.sorted.filter _⟩

/-- Takes the value of a key away. -/
def erase [DecidableEq κ] (m : SortedMap κ β) (k : κ) : SortedMap κ β := m.filter fun j _ => j != k

variable [Std.TransOrd κ] [Std.LawfulEqOrd κ]

omit [Std.TransOrd κ] in
theorem fst_mem_alterIn {k : κ} {f : Option β → β} {e : κ × β} {xs : List (κ × β)}
    (h : e ∈ alterIn k f xs) : e.1 = k ∨ e ∈ xs := by
  induction xs with
  | nil => simp_all [alterIn]
  | cons y ys ih =>
    unfold alterIn at h
    split at h
    · rcases List.mem_cons.mp h with rfl | h
      · exact .inl rfl
      · exact .inr h
    · next hk =>
      rcases List.mem_cons.mp h with rfl | h
      · exact .inl (Std.LawfulEqOrd.eq_of_compare hk).symm
      · exact .inr (List.mem_cons_of_mem _ h)
    · rcases List.mem_cons.mp h with rfl | h
      · exact .inr (List.mem_cons_self ..)
      · exact (ih h).imp id (List.mem_cons_of_mem _)

theorem pairwise_alterIn {k : κ} {f : Option β → β} {xs : List (κ × β)}
    (h : xs.Pairwise (compare ·.1 ·.1 = .lt)) :
    (alterIn k f xs).Pairwise (compare ·.1 ·.1 = .lt) := by
  induction xs with
  | nil => simp [alterIn]
  | cons y ys ih =>
    obtain ⟨hy, hys⟩ := List.pairwise_cons.mp h
    unfold alterIn
    split
    · next hk =>
      refine List.pairwise_cons.mpr ⟨fun z hz => ?_, h⟩
      rcases List.mem_cons.mp hz with rfl | hz
      · exact hk
      · exact Std.TransCmp.lt_trans hk (hy z hz)
    · exact List.pairwise_cons.mpr ⟨hy, hys⟩
    · next hk =>
      refine List.pairwise_cons.mpr ⟨fun z hz => ?_, ih hys⟩
      rcases fst_mem_alterIn hz with rfl | hz
      · exact Std.OrientedCmp.lt_of_gt hk
      · exact hy z hz

/-- Gives a key the value that `f` makes of its present one. -/
def alter (m : SortedMap κ β) (k : κ) (f : Option β → β) : SortedMap κ β :=
  ⟨alterIn k f m.toList, pairwise_alterIn m.sorted⟩

/-- Gives a key a value, in place of the one it has. -/
def insert (m : SortedMap κ β) (k : κ) (b : β) : SortedMap κ β := m.alter k fun _ => b

/-- The map of a list of entries; of two entries with one key the later wins. -/
def ofList (es : List (κ × β)) : SortedMap κ β := es.foldl (fun m e => m.insert e.1 e.2) empty

/-- The values changed by `f`, under the same keys. -/
def mapValues {γ : Type} (f : κ → β → γ) (m : SortedMap κ β) : SortedMap κ γ :=
  ⟨m.toList.map fun e => (e.1, f e.1 e.2), by
    rw [List.pairwise_map]
    exact m.sorted⟩

omit [Std.TransOrd κ] [Std.LawfulEqOrd κ] in
/-- A key before all others has no value. -/
theorem find?_eq_none {k : κ} {xs : List (κ × β)} (h : ∀ e ∈ xs, compare k e.1 = .lt) :
    find? k xs = none := by
  induction xs with
  | nil => rfl
  | cons y ys ih =>
    have := h y (by simp)
    simp only [find?, this]
    exact ih fun e he => h e (by simp [he])

theorem find?_alterIn {k j : κ} {f : Option β → β} {xs : List (κ × β)}
    (h : xs.Pairwise (compare ·.1 ·.1 = .lt)) :
    find? j (alterIn k f xs) = if compare j k == .eq then some (f (find? k xs)) else find? j xs := by
  induction xs with
  | nil => simp [alterIn, find?]
  | cons y ys ih =>
    obtain ⟨hy, hys⟩ := List.pairwise_cons.mp h
    obtain ⟨x, b⟩ := y
    unfold alterIn
    split
    · next hk =>
      have hnone : find? k ((x, b) :: ys) = none := by
        refine find?_eq_none fun z hz => ?_
        rcases List.mem_cons.mp hz with rfl | hz
        · exact hk
        · exact Std.TransCmp.lt_trans hk (hy z hz)
      rw [hnone]
      simp [find?]
    · next hk =>
      cases Std.LawfulEqOrd.eq_of_compare hk
      simp only [find?]
      split <;> simp
    · next hk =>
      simp only [find?, ih hys, hk]
      by_cases hj : compare j x = .eq
      · cases Std.LawfulEqOrd.eq_of_compare hj
        have : compare j k ≠ .eq := by
          rw [@Std.OrientedCmp.eq_swap κ compare, hk]
          decide
        simp [this]
      · simp [hj]

omit [Std.TransOrd κ] [Std.LawfulEqOrd κ] in
@[simp] theorem get?_empty {k : κ} : (empty : SortedMap κ β).get? k = none := rfl

theorem get?_alter [DecidableEq κ] {m : SortedMap κ β} {k j : κ} {f : Option β → β} :
    (m.alter k f).get? j = if j = k then some (f (m.get? k)) else m.get? j := by
  simp [alter, get?, find?_alterIn m.sorted]

theorem get?_insert [DecidableEq κ] {m : SortedMap κ β} {k j : κ} {b : β} :
    (m.insert k b).get? j = if j = k then some b else m.get? j := get?_alter

theorem contains_alter [DecidableEq κ] {m : SortedMap κ β} {k j : κ} {f : Option β → β} :
    (m.alter k f).contains j = true ↔ j = k ∨ m.contains j = true := by
  rw [contains, get?_alter]
  split
  · next h => simp [h]
  · next h => simp [h, contains]

theorem contains_insert [DecidableEq κ] {m : SortedMap κ β} {k j : κ} {b : β} :
    (m.insert k b).contains j = true ↔ j = k ∨ m.contains j = true := contains_alter

/-- Where every key of a list stands once, what the list holds at a key changes the value of the
key, and nothing else does. -/
theorem get?_foldl_alter [DecidableEq κ] {f : Option β → β → β} {es : List (κ × β)}
    (hes : es.Pairwise (compare ·.1 ·.1 = .lt)) {m : SortedMap κ β} {k : κ} :
    (es.foldl (fun m e => m.alter e.1 fun present => f present e.2) m).get? k =
      (find? k es).elim (m.get? k) fun b => some (f (m.get? k) b) := by
  induction es generalizing m with
  | nil => rfl
  | cons e es ih =>
    obtain ⟨he, hes⟩ := List.pairwise_cons.mp hes
    rw [List.foldl_cons, ih hes, get?_alter, find?]
    split
    · next h =>
      subst h
      rw [find?_eq_none he]
      simp
    · next h =>
      have : (compare k e.1 == .eq) = false := by simpa using h
      simp [this]

/-- Where every key of a list stands once, what is combined with the value of a key is what the list
holds there. -/
theorem getD_get?_foldl_alter [DecidableEq κ] {f : β → β → β} {unit : β} (hf : ∀ b, f b unit = b)
    {es : List (κ × β)} (hes : es.Pairwise (compare ·.1 ·.1 = .lt)) {m : SortedMap κ β} {k : κ} :
    ((es.foldl (fun m e => m.alter e.1 fun present => f (present.getD unit) e.2) m).get? k).getD
        unit =
      f ((m.get? k).getD unit) ((find? k es).getD unit) := by
  rw [get?_foldl_alter (f := fun present b => f (present.getD unit) b) hes]
  cases find? k es with
  | none => exact (hf _).symm
  | some b => rfl

omit [Std.TransOrd κ] in
theorem mem_toList_iff {m : SortedMap κ β} {e : κ × β} : e ∈ m.toList ↔ m.get? e.1 = some e.2 := by
  obtain ⟨xs, hxs⟩ := m
  show e ∈ xs ↔ find? e.1 xs = some e.2
  induction xs with
  | nil => simp [find?]
  | cons y ys ih =>
    obtain ⟨hy, hys⟩ := List.pairwise_cons.mp hxs
    rw [List.mem_cons, ih hys, find?]
    split
    · next hk =>
      have hk := Std.LawfulEqOrd.eq_of_compare (eq_of_beq hk)
      have hnot : e ∉ ys := fun hmem => by
        have := hy e hmem
        rw [hk] at this
        simp at this
      rw [← ih hys]
      constructor
      · rintro (rfl | h)
        · rfl
        · exact absurd h hnot
      · intro h
        exact .inl (Prod.ext hk (Option.some.inj h).symm)
    · next hk =>
      constructor
      · rintro (rfl | h)
        · simp at hk
        · exact h
      · exact .inr

omit [Std.TransOrd κ] in
theorem mem_keys_iff {m : SortedMap κ β} {k : κ} : k ∈ m.keys ↔ m.contains k = true := by
  rw [keys, List.mem_map, contains, Option.isSome_iff_exists]
  constructor
  · rintro ⟨e, he, rfl⟩
    exact ⟨e.2, mem_toList_iff.mp he⟩
  · rintro ⟨b, hb⟩
    exact ⟨(k, b), mem_toList_iff.mpr hb, rfl⟩

omit [Std.TransOrd κ] in
theorem nodup_keys (m : SortedMap κ β) : m.keys.Nodup := by
  refine List.pairwise_map.mpr (m.sorted.imp fun {a b} lt eq => ?_)
  rw [eq] at lt
  simp at lt

omit [Std.TransOrd κ] in
theorem get?_filter {p : κ → β → Bool} {m : SortedMap κ β} {k : κ} :
    (m.filter p).get? k = (m.get? k).filter (p k) := by
  refine Option.ext fun b => ?_
  have h : (k, b) ∈ (m.filter p).toList ↔ (m.filter p).get? k = some b := mem_toList_iff
  have hm : (k, b) ∈ m.toList ↔ m.get? k = some b := mem_toList_iff
  rw [← h, Option.filter_eq_some_iff, ← hm]
  simp [filter]

omit [Std.TransOrd κ] in
theorem get?_erase [DecidableEq κ] {m : SortedMap κ β} {k j : κ} :
    (m.erase k).get? j = if j = k then none else m.get? j := by
  rw [erase, get?_filter]
  split
  · next h => cases m.get? j <;> simp [h]
  · next h => cases m.get? j <;> simp [h]

omit [Std.TransOrd κ] in
/-- What holds of the look-ups in a list holds of its first entry and of the look-ups in the rest. -/
theorem forall_find?_cons {x : κ} {b : β} {xs : List (κ × β)}
    (hlt : ∀ e ∈ xs, compare x e.1 = .lt) {q : κ → Option β → Prop} (hx : q x none) :
    (∀ k, q k (find? k ((x, b) :: xs))) ↔ q x (some b) ∧ ∀ k, q k (find? k xs) := by
  simp only [find?]
  constructor
  · intro h
    refine ⟨by simpa using h x, fun k => ?_⟩
    by_cases hk : compare k x = .eq
    · cases Std.LawfulEqOrd.eq_of_compare hk
      rwa [find?_eq_none hlt]
    · simpa [hk] using h k
  · intro h k
    split
    · next hk =>
      cases Std.LawfulEqOrd.eq_of_compare (eq_of_beq hk)
      exact h.1
    · exact h.2 k

omit [Std.TransOrd κ] in
theorem relatesIn_nil_iff {γ : Type} {p : Option β → Option γ → Bool} (hp : p none none = true)
    {ys : List (κ × γ)} (hys : ys.Pairwise (compare ·.1 ·.1 = .lt)) :
    relatesIn p [] ys = true ↔ ∀ k, p none (find? k ys) = true := by
  induction ys with
  | nil => simp [relatesIn, find?, hp]
  | cons y ys ih =>
    obtain ⟨hy, hys⟩ := List.pairwise_cons.mp hys
    rw [forall_find?_cons (q := fun _ o => p none o = true) hy hp, ← ih hys]
    simp [relatesIn]

theorem relatesFrom_iff {γ : Type} {p : Option β → Option γ → Bool} (hp : p none none = true)
    {x : κ} {b : β} {xs : List (κ × β)} (hx : ∀ e ∈ xs, compare x e.1 = .lt)
    {rest : List (κ × γ) → Bool}
    (hrest : ∀ zs, zs.Pairwise (compare ·.1 ·.1 = .lt) →
      (rest zs = true ↔ ∀ k, p (find? k xs) (find? k zs) = true))
    {ys : List (κ × γ)} (hys : ys.Pairwise (compare ·.1 ·.1 = .lt)) :
    relatesFrom p x b rest ys = true ↔
      ∀ k, p (find? k ((x, b) :: xs)) (find? k ys) = true := by
  induction ys with
  | nil =>
    rw [forall_find?_cons (q := fun k o => p o (find? k ([] : List (κ × γ))) = true) hx hp]
    simp [relatesFrom, hrest [] .nil, find?]
  | cons y ys ih =>
    obtain ⟨hy, hys'⟩ := List.pairwise_cons.mp hys
    obtain ⟨y, c⟩ := y
    simp only [relatesFrom]
    split
    · next hk =>
      have hnone : find? x ((y, c) :: ys) = none := find?_eq_none fun e he => by
        rcases List.mem_cons.mp he with rfl | he
        · exact hk
        · exact Std.TransCmp.lt_trans hk (hy e he)
      rw [forall_find?_cons (q := fun k o => p o (find? k ((y, c) :: ys)) = true) hx
        (by rw [hnone]; exact hp), hnone, ← hrest _ hys, Bool.and_eq_true]
    · next hk =>
      cases Std.LawfulEqOrd.eq_of_compare hk
      rw [Bool.and_eq_true, hrest _ hys']
      constructor
      · intro h k
        simp only [find?]
        split
        · exact h.1
        · exact h.2 k
      · intro h
        refine ⟨by simpa [find?] using h x, fun k => ?_⟩
        by_cases hkx : compare k x = .eq
        · cases Std.LawfulEqOrd.eq_of_compare hkx
          rw [find?_eq_none hx, find?_eq_none hy]
          exact hp
        · simpa [find?, hkx] using h k
    · next hk =>
      have hyx : compare y x = .lt := Std.OrientedCmp.lt_of_gt hk
      have hnone : find? y ((x, b) :: xs) = none := find?_eq_none fun e he => by
        rcases List.mem_cons.mp he with rfl | he
        · exact hyx
        · exact Std.TransCmp.lt_trans hyx (hx e he)
      rw [forall_find?_cons (q := fun k o => p (find? k ((x, b) :: xs)) o = true) hy
        (by rw [hnone]; exact hp), hnone, ← ih hys', Bool.and_eq_true]

/-- A relation that holds where neither map has a value is tested at every key. -/
theorem relates_iff {γ : Type} {p : Option β → Option γ → Bool} (hp : p none none = true)
    {m : SortedMap κ β} {n : SortedMap κ γ} :
    m.relates p n = true ↔ ∀ k, p (m.get? k) (n.get? k) = true := by
  obtain ⟨xs, hxs⟩ := m
  show relatesIn p xs n.toList = true ↔ ∀ k, p (find? k xs) (find? k n.toList) = true
  suffices h : ∀ ys : List (κ × γ), ys.Pairwise (compare ·.1 ·.1 = .lt) →
      (relatesIn p xs ys = true ↔ ∀ k, p (find? k xs) (find? k ys) = true) from h _ n.sorted
  induction xs with
  | nil => exact fun ys hys => relatesIn_nil_iff hp hys
  | cons x xs ih =>
    obtain ⟨hx, hxs⟩ := List.pairwise_cons.mp hxs
    exact fun ys hys => relatesFrom_iff hp hx (ih hxs) hys

/-- Maps with the same look-ups are equal. -/
theorem ext {m n : SortedMap κ β} (h : ∀ k, m.get? k = n.get? k) : m = n := by
  have hmem : ∀ e, e ∈ m.toList ↔ e ∈ n.toList := fun e => by
    rw [mem_toList_iff, mem_toList_iff, h]
  obtain ⟨xs, hxs⟩ := m
  obtain ⟨ys, hys⟩ := n
  cases eq_of_mem_iff_of_pairwise (by simp) Std.TransCmp.lt_trans hxs hys hmem
  rfl

omit [Std.TransOrd κ] [Std.LawfulEqOrd κ] in
theorem toList_inj {m n : SortedMap κ β} : m.toList = n.toList ↔ m = n := by
  constructor
  · intro h
    cases m
    cases n
    cases h
    rfl
  · exact congrArg toList

omit [Std.LawfulEqOrd κ] in
/-- A key after all others goes to the end. -/
theorem alterIn_of_lt {k : κ} {f : Option β → β} {xs : List (κ × β)}
    (h : ∀ e ∈ xs, compare e.1 k = .lt) : alterIn k f xs = xs ++ [(k, f none)] := by
  induction xs with
  | nil => rfl
  | cons x xs ih =>
    have gt := Std.OrientedCmp.gt_of_lt (h x List.mem_cons_self)
    simp only [alterIn, gt, List.cons_append]
    rw [ih fun e he => h e (List.mem_cons_of_mem _ he)]

/-- A map is the map of its entries. -/
theorem ofList_toList (m : SortedMap κ β) : ofList m.toList = m := by
  suffices h : ∀ (es : List (κ × β)) (n : SortedMap κ β),
      (n.toList ++ es).Pairwise (compare ·.1 ·.1 = .lt) →
      (es.foldl (fun m e => m.insert e.1 e.2) n).toList = n.toList ++ es from
    toList_inj.mp (h m.toList empty m.sorted)
  intro es
  induction es with
  | nil => exact fun n _ => (List.append_nil _).symm
  | cons e es ih =>
    intro n sorted
    have last : ∀ x ∈ n.toList, compare x.1 e.1 = .lt := fun x hx =>
      (List.pairwise_append.mp sorted).2.2 x hx e List.mem_cons_self
    have inserted : (n.insert e.1 e.2).toList = n.toList ++ [e] := alterIn_of_lt last
    rw [List.foldl_cons, ih, inserted, List.append_assoc, List.singleton_append]
    rwa [inserted, List.append_assoc, List.singleton_append]

/-- The keys of the map of a list are keys of the list. -/
theorem exists_mem_of_mem_ofList {e : κ × β} {es : List (κ × β)} (h : e ∈ (ofList es).toList) :
    ∃ d ∈ es, d.1 = e.1 := by
  suffices h : ∀ m : SortedMap κ β, e ∈ (es.foldl (fun m e => m.insert e.1 e.2) m).toList →
      (∃ d ∈ es, d.1 = e.1) ∨ e ∈ m.toList from (h empty ‹_›).resolve_right List.not_mem_nil
  clear h
  induction es with
  | nil => exact fun _ => .inr
  | cons d es ih =>
    intro m h
    obtain ⟨x, hx, eq⟩ | h := ih _ h
    · exact .inl ⟨x, List.mem_cons_of_mem _ hx, eq⟩
    · obtain eq | h := fst_mem_alterIn h
      · exact .inl ⟨d, List.mem_cons_self, eq.symm⟩
      · exact .inr h

end SortedMap

end Interleaving
