import Mathlib
import TypedDecl.Catalog.TableMap
import TypedDecl.Proofs.Grouping

namespace TypedDecl

open Catalog (tableKeys columnsOf)

namespace Catalog

/-- A table that came first stands first. -/
theorem pairwise_tableKeys (cs : List Column) : (tableKeys cs).Pairwise fun k k' =>
    (cs.map Column.key).idxOf k < (cs.map Column.key).idxOf k' :=
  (firstsOf_eraseDups (cs.map Column.key)).order

theorem length_tableKeys (cs : List Column) :
    (tableKeys cs).length = (cs.map Column.key).toFinset.card := by
  have same : (tableKeys cs).toFinset = (cs.map Column.key).toFinset := by
    ext k
    rw [List.mem_toFinset, List.mem_toFinset, tableKeys, List.mem_eraseDups]
  rw [← same, List.toFinset_card_of_nodup (nodup_tableKeys cs)]

end Catalog

namespace TableMap

section Index

variable (m : TableMap) {k : TableKey} {t : Table}

/-- The index finds what stands behind a key. -/
theorem get?_eq_some_iff : m.get? k = some t ↔ (k, t) ∈ m.entries := by
  rw [get?, Option.bind_eq_some_iff, List.mem_iff_getElem?]
  constructor
  · rintro ⟨i, known, found⟩
    have here := (m.placed k i).mp known
    obtain ⟨⟨k', t'⟩, entry, rfl⟩ := Option.map_eq_some_iff.mp found
    rw [entry] at here
    obtain rfl : k' = k := by simpa using here
    exact ⟨i, entry⟩
  · rintro ⟨i, entry⟩
    refine ⟨i, (m.placed k i).mpr ?_, ?_⟩ <;> rw [entry] <;> rfl

theorem mem_keys : k ∈ m.keys ↔ ∃ t, (k, t) ∈ m.entries := by
  simp [keys]

theorem get?_eq_none_iff : m.get? k = none ↔ k ∉ m.keys := by
  rw [Option.eq_none_iff_forall_ne_some, mem_keys, not_exists]
  exact forall_congr' fun t => not_congr m.get?_eq_some_iff

/-- The index knows one place for a key, so no key stands at two. -/
theorem nodup_keys : m.keys.Nodup := by
  rw [List.nodup_iff_getElem?_ne_getElem?]
  intro i j before inside same
  rw [keys, List.length_map] at inside
  have there : m.keys[j]? = some (m.entries[j].1) := by
    rw [keys, List.getElem?_map, List.getElem?_eq_getElem inside]
    rfl
  have here := same.trans there
  rw [keys, List.getElem?_map] at here there
  have first := (m.placed _ i).mpr here
  have second := (m.placed _ j).mpr there
  have equal : i = j := Option.some.inj (first.symm.trans second)
  omega

end Index

section Grouping

variable {withSchema : Bool} {cs : List Column} {m : TableMap}

/-- The entries that columns make up, in closed form. -/
def entriesOf (withSchema : Bool) (cs : List Column) : List (TableKey × Table) :=
  (tableKeys cs).map fun k => (k, Table.ofKey withSchema cs k)

theorem keys_entriesOf (withSchema : Bool) (cs : List Column) :
    (entriesOf withSchema cs).map Prod.fst = tableKeys cs := by
  rw [entriesOf, List.map_map]
  exact List.map_id _

/-- A column of a table that is there changes the entry of that table. -/
theorem modify_entriesOf {c : Column} {i : Nat} (here : (tableKeys cs)[i]? = some c.key) :
    ((entriesOf withSchema cs).modify i fun e => (e.1, e.2.push c)) =
      entriesOf withSchema (cs ++ [c]) := by
  have known : c.key ∈ tableKeys cs := List.mem_of_getElem? here
  rw [entriesOf, entriesOf, Catalog.tableKeys_append_singleton, if_pos known]
  apply List.ext_getElem?
  intro j
  rw [List.getElem?_modify, List.getElem?_map, List.getElem?_map]
  cases there : (tableKeys cs)[j]? with
  | none => rfl
  | some k =>
    -- The keys are different, so only the entry at the place of the key gets the column.
    have place : i = j ↔ c.key = k := by
      constructor
      · rintro rfl
        exact Option.some.inj (here.symm.trans there)
      · rintro rfl
        exact (List.getElem?_inj (List.getElem?_eq_some_iff.mp here).1
          (Catalog.nodup_tableKeys cs)).mp (here.trans there.symm)
    simp only [Option.map_some, Table.ofKey_append_singleton, ← place]
    split_ifs <;> rfl

/-- The first column of a table adds an entry and leaves the others as they are. -/
theorem append_entriesOf {c : Column} (fresh : c.key ∉ tableKeys cs) :
    entriesOf withSchema cs ++ [(c.key, Table.ofColumn withSchema c)] =
      entriesOf withSchema (cs ++ [c]) := by
  have first : Table.ofKey withSchema (cs ++ [c]) c.key = Table.ofColumn withSchema c := by
    rw [Table.ofKey_append_singleton, if_pos rfl, Table.ofKey, Catalog.columnsOf_eq_nil fresh]
    rfl
  have others : ∀ k ∈ tableKeys cs,
      (k, Table.ofKey withSchema cs k) = (k, Table.ofKey withSchema (cs ++ [c]) k) := by
    intro k hk
    have ne : c.key ≠ k := fun same => fresh (same ▸ hk)
    rw [Table.ofKey_append_singleton, if_neg ne]
  rw [entriesOf, entriesOf, Catalog.tableKeys_append_singleton, if_neg fresh, List.map_append,
    List.map_singleton, first, List.map_congr_left others]

theorem entries_push (h : m.entries = entriesOf withSchema cs) (c : Column) :
    (m.push withSchema c).entries = entriesOf withSchema (cs ++ [c]) := by
  have place (i : Nat) : m.entries[i]?.map Prod.fst = (tableKeys cs)[i]? := by
    rw [← List.getElem?_map, h, keys_entriesOf]
  unfold push
  split
  case h_1 i found =>
    have here := (m.placed c.key i).mp found
    rw [place] at here
    rw [entries_modify, h]
    exact modify_entriesOf here
  case h_2 unknown =>
    have fresh : c.key ∉ tableKeys cs := by
      intro known
      obtain ⟨i, here⟩ := List.mem_iff_getElem?.mp known
      rw [← place] at here
      rw [(m.placed c.key i).mpr here] at unknown
      cases unknown
    rw [entries_append, h]
    exact append_entriesOf fresh

theorem entries_ofColumns (withSchema : Bool) (cs : List Column) :
    (ofColumns withSchema cs).entries = entriesOf withSchema cs := by
  induction cs using List.reverseRecOn with
  | nil => rfl
  | append_singleton cs c ih =>
    have step : ofColumns withSchema (cs ++ [c]) = (ofColumns withSchema cs).push withSchema c := by
      rw [ofColumns, List.foldl_append]
      rfl
    rw [step]
    exact entries_push ih c

theorem mem_entriesOf {k : TableKey} {t : Table} :
    (k, t) ∈ entriesOf withSchema cs ↔ k ∈ tableKeys cs ∧ Table.ofKey withSchema cs k = t := by
  simp [entriesOf]

theorem keys_ofColumns (withSchema : Bool) (cs : List Column) :
    (ofColumns withSchema cs).keys = tableKeys cs := by
  rw [keys, entries_ofColumns, keys_entriesOf]

theorem tables_ofColumns (withSchema : Bool) (cs : List Column) :
    (ofColumns withSchema cs).tables = Table.ofColumns withSchema cs := by
  rw [tables, entries_ofColumns, entriesOf, List.map_map, Table.ofColumns_eq]
  rfl

theorem get?_ofColumns (withSchema : Bool) (cs : List Column) (k : TableKey) :
    (ofColumns withSchema cs).get? k =
      if k ∈ tableKeys cs then some (Table.ofKey withSchema cs k) else none := by
  split_ifs with known
  · rw [get?_eq_some_iff, entries_ofColumns, mem_entriesOf]
    exact ⟨known, rfl⟩
  · rw [get?_eq_none_iff, keys_ofColumns]
    exact known

end Grouping

end TableMap

theorem Table.find?_ofColumns (withSchema : Bool) (cs : List Column) (k : TableKey) :
    find? k (ofColumns withSchema cs) =
      if k ∈ tableKeys cs then some (ofKey withSchema cs k) else none := by
  have keys : (fun t : Table => decide (t.key = k)) ∘ ofKey withSchema cs =
      fun k' => decide (k' = k) := rfl
  rw [find?, ofColumns_eq, List.find?_map, keys]
  cases first : (tableKeys cs).find? (fun k' => decide (k' = k)) with
  | none =>
    have unknown : k ∉ tableKeys cs := by
      intro known
      simpa using List.find?_eq_none.mp first k known
    rw [if_neg unknown, Option.map_none]
  | some k' =>
    obtain rfl : k' = k := by simpa using List.find?_some first
    rw [if_pos (List.mem_of_find?_eq_some first), Option.map_some]

namespace TableMap

/-- The map holds the columns of a catalog table by table. -/
structure Groups (withSchema : Bool) (cs : List Column) (m : TableMap) : Prop where
  distinct : m.keys.Nodup
  /-- The keys are the pairs of a schema and a name that columns have. -/
  keys : ∀ k, k ∈ m.keys ↔ ∃ c ∈ cs, c.key = k
  /-- A pair whose first column comes before that of another one stands before it. -/
  order : m.keys.Pairwise fun k k' =>
    (cs.map Column.key).idxOf k < (cs.map Column.key).idxOf k'
  entry : ∀ k t, (k, t) ∈ m.entries → t.schema = k.schema ∧ t.name = k.table ∧
    t.declared = Table.declaredName withSchema k ∧ t.columns = cs.filter (·.key = k) ∧
    t.columns ≠ []
  found : ∀ k t, m.get? k = some t ↔ (k, t) ∈ m.entries
  missing : ∀ k, m.get? k = none ↔ ∀ c ∈ cs, c.key ≠ k
  size : m.size = (cs.map Column.key).toFinset.card
  /-- No column is lost, and none is held twice. -/
  columns : (m.tables.flatMap Table.columns).Perm cs

/-- The tables of a catalog are a stable partition of its columns, and the index finds them. The
catalog's declarations are made of the same tables. -/
theorem groups_ofColumns (withSchema : Bool) (cs : List Column) :
    (ofColumns withSchema cs).Groups withSchema cs ∧
      (ofColumns withSchema cs).tables = Table.ofColumns withSchema cs ∧
      ∀ k, (ofColumns withSchema cs).get? k = Table.find? k (Table.ofColumns withSchema cs) := by
  have entry (k : TableKey) (t : Table) (h : (k, t) ∈ (ofColumns withSchema cs).entries) :
      t.schema = k.schema ∧ t.name = k.table ∧ t.declared = Table.declaredName withSchema k ∧
        t.columns = cs.filter (·.key = k) ∧ t.columns ≠ [] := by
    rw [entries_ofColumns, mem_entriesOf] at h
    obtain ⟨known, rfl⟩ := h
    obtain ⟨c, hc, same⟩ := Catalog.mem_tableKeys.mp known
    have held : c ∈ columnsOf cs k := Catalog.mem_columnsOf.mpr ⟨hc, same⟩
    exact ⟨rfl, rfl, rfl, rfl, List.ne_nil_of_mem held⟩
  have size : (ofColumns withSchema cs).size = (cs.map Column.key).toFinset.card := by
    rw [TableMap.size, entries_ofColumns, entriesOf, List.length_map, Catalog.length_tableKeys]
  have columns : ((ofColumns withSchema cs).tables.flatMap Table.columns).Perm cs := by
    rw [tables_ofColumns, Table.ofColumns_eq, List.flatMap_map]
    exact Catalog.grouped_perm cs
  have missing (k : TableKey) :
      (ofColumns withSchema cs).get? k = none ↔ ∀ c ∈ cs, c.key ≠ k := by
    rw [get?_eq_none_iff, keys_ofColumns, Catalog.mem_tableKeys, not_exists]
    exact forall_congr' fun c => not_and
  refine ⟨⟨nodup_keys _, ?_, ?_, entry, fun k t => get?_eq_some_iff _, missing, size, columns⟩,
    tables_ofColumns withSchema cs, ?_⟩
  · intro k
    rw [keys_ofColumns, Catalog.mem_tableKeys]
  · rw [keys_ofColumns]
    exact Catalog.pairwise_tableKeys cs
  · intro k
    rw [get?_ofColumns, Table.find?_ofColumns]

/-- Two pairs whose declarations have one name are two tables. -/
example : (ofColumns true [⟨"a_b", "c", "Id", "int"⟩, ⟨"a", "b_c", "Id", "int"⟩,
    ⟨"a_b", "c", "Tag", "int"⟩]).tables.map (fun t => (t.declared, t.columns.length)) =
      [("a_b_c", 2), ("a_b_c", 1)] := by
  rfl

end TableMap

end TypedDecl
