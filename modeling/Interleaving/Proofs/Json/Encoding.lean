import Interleaving.Json.Record
import Interleaving.Proofs.Json.RoundTrip

/-!
# Types whose values are read back

What it means that a reader undoes a writer, down to the text, and how this passes from the parts of
a value to the whole: options, lists, choices that are given by name, and records.
-/

namespace Interleaving.Json

variable {α β : Type}

/-- The reader undoes the writer, and nothing that is written gets lost in the text. -/
structure Undoes (read : Json → Option α) (write : α → Json) : Prop where
  plain : ∀ a, (write a).Plain
  read_write : ∀ a, read (write a) = some a

/-- A value is read back from its text. -/
lemma Undoes.bind_parse?_pretty {read : Json → Option α} {write : α → Json}
    (h : Undoes read write) (a : α) : (parse? (write a).pretty).bind read = some a := by
  rw [parse?_pretty (h.plain a), Option.bind_some, h.read_write]

lemma undoes_uint64 : Undoes uint64? ofUInt64 where
  plain _ := .nat _
  read_write n := by
    rw [ofUInt64, uint64?, if_pos n.toNat_lt_size, UInt64.ofNat_toNat]

lemma undoes_uint32 : Undoes uint32? ofUInt32 where
  plain _ := .nat _
  read_write n := by
    rw [ofUInt32, uint32?, if_pos n.toNat_lt_size, UInt32.ofNat_toNat]

lemma undoes_str : Undoes str? str where
  plain := .str
  read_write _ := rfl

lemma undoes_bool : Undoes bool? bool where
  plain := .bool
  read_write _ := rfl

/-- Something that may be absent is read back where `null` stands for nothing else. -/
lemma Undoes.optional {read : Json → Option α} {write : α → Json} (h : Undoes read write)
    (not_null : ∀ a, write a ≠ null) : Undoes (optional? read) (ofOption write) where
  plain
    | none => .null
    | some a => h.plain a
  read_write
    | none => rfl
    | some a => by
      rw [ofOption, optional?, h.read_write]
      · rfl
      · exact not_null a

lemma Undoes.list {read : Json → Option α} {write : α → Json} (h : Undoes read write) :
    Undoes (list? read) (ofList write) where
  plain as := .arr (List.forall_mem_map.mpr fun a _ => h.plain a)
  read_write as := by
    rw [ofList, list?, arr?, Option.bind_some, mapM_map_eq_some h.read_write]

/-- A choice is read back where every one has a name of its own. -/
lemma undoes_choice {ofName : String → Option α} {name : α → String}
    (named : ∀ a, ofName (name a) = some a) : Undoes (choice? ofName) (fun a => str (name a)) where
  plain _ := .str _
  read_write := named

lemma plain_record {names : List String} {values : List Json} (h : ∀ v ∈ values, v.Plain) :
    (obj (names.zip values)).Plain :=
  .obj fun _ hm => h _ (List.of_mem_zip hm).2

/-- A record with all its fields is read as it was written. -/
lemma record?_zip {names : List String} {values : List Json} (nodup : names.Nodup)
    (complete : names.length = values.length) :
    record? names (obj (names.zip values)) = some (names.zip values) := by
  have known : (names.zip values).filter (names.contains ·.1) = names.zip values := by
    rw [List.filter_eq_self]
    exact fun _ hm => List.contains_iff_mem.mpr (List.of_mem_zip hm).1
  rw [record?, known, List.map_fst_zip complete.le, if_pos nodup]

section Fields

variable {r : List (String × Json)} {name : String} {j : Json} {a : α} {b : β}
  {read : Json → Option α} {next : α → Option β}

lemma required_then (given : r.lookup name = some j) (first : read j = some a)
    (others : next a = some b) : (required? r name read >>= next) = some b := by
  simp [required?, given, first, others]

lemma field_then {standard : α} (given : r.lookup name = some j) (first : read j = some a)
    (others : next a = some b) : (field? r name standard read >>= next) = some b := by
  simp [field?, given, first, others]

end Fields

end Interleaving.Json
