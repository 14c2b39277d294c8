import TypedDecl.Catalog.Table
import TypedDecl.Proofs.FirstOccurrences

namespace TypedDecl

namespace Catalog

/-- The tables that columns belong to, in the order of their first columns. -/
def tableKeys (cs : List Column) : List TableKey := (cs.map Column.key).eraseDups

/-- The columns of a table, in their order. -/
def columnsOf (cs : List Column) (k : TableKey) : List Column := cs.filter (·.key = k)

/-- The columns table by table. -/
def grouped (cs : List Column) : List Column := (tableKeys cs).flatMap (columnsOf cs)

theorem mem_columnsOf {cs : List Column} {k : TableKey} {c : Column} :
    c ∈ columnsOf cs k ↔ c ∈ cs ∧ c.key = k := by
  simp [columnsOf]

theorem mem_tableKeys {cs : List Column} {k : TableKey} :
    k ∈ tableKeys cs ↔ ∃ c ∈ cs, c.key = k := by
  simp [tableKeys, List.mem_eraseDups]

theorem tableKeys_append_singleton (cs : List Column) (c : Column) :
    tableKeys (cs ++ [c]) =
      if c.key ∈ tableKeys cs then tableKeys cs else tableKeys cs ++ [c.key] := by
  rw [tableKeys, List.map_append, List.map_singleton, eraseDups_append_singleton]
  simp only [tableKeys, List.mem_eraseDups]

theorem nodup_tableKeys (cs : List Column) : (tableKeys cs).Nodup :=
  nodup_eraseDups (cs.map Column.key)

theorem columnsOf_append_singleton (cs : List Column) (c : Column) (k : TableKey) :
    columnsOf (cs ++ [c]) k = columnsOf cs k ++ if c.key = k then [c] else [] := by
  simp only [columnsOf, List.filter_append, List.filter_cons, List.filter_nil, decide_eq_true_eq]

theorem columnsOf_eq_nil {cs : List Column} {k : TableKey} (h : k ∉ tableKeys cs) :
    columnsOf cs k = [] := by
  rw [columnsOf, List.filter_eq_nil_iff]
  intro c hc hk
  exact h (mem_tableKeys.mpr ⟨c, hc, of_decide_eq_true hk⟩)

/-- Columns that are all of different tables can be gathered table by table. -/
theorem flatMap_columnsOf_perm {ks : List TableKey} (nodup : ks.Nodup) {cs : List Column}
    (all : ∀ c ∈ cs, c.key ∈ ks) : (ks.flatMap (columnsOf cs)).Perm cs := by
  induction ks generalizing cs with
  | nil =>
    have empty : cs = [] := List.eq_nil_iff_forall_not_mem.mpr fun c hc => by simpa using all c hc
    rw [empty]
    exact .nil
  | cons k ks ih =>
    obtain ⟨fresh, nodup⟩ := List.nodup_cons.mp nodup
    have others : ks.flatMap (columnsOf cs) =
        ks.flatMap (columnsOf (cs.filter fun c => !decide (c.key = k))) := by
      apply List.flatMap_congr
      intro k' hk'
      have ne : k' ≠ k := fun h => fresh (h ▸ hk')
      rw [columnsOf, columnsOf, List.filter_filter]
      apply List.filter_congr
      intro c _
      by_cases h : c.key = k' <;> simp [h, ne]
    have rest : ∀ c ∈ cs.filter (fun c => !decide (c.key = k)), c.key ∈ ks := by
      intro c hc
      obtain ⟨hc, hk⟩ := List.mem_filter.mp hc
      exact List.mem_of_ne_of_mem (by simpa using hk) (all c hc)
    rw [List.flatMap_cons, others]
    exact ((ih nodup rest).append_left _).trans (List.filter_append_perm _ cs)

/-- Going through the tables reaches every column once. -/
theorem grouped_perm (cs : List Column) : (grouped cs).Perm cs :=
  flatMap_columnsOf_perm (nodup_tableKeys cs) fun c hc => mem_tableKeys.mpr ⟨c, hc, rfl⟩

end Catalog

namespace Table

open Catalog (tableKeys columnsOf)

/-- The table with the columns of a pair of a schema and a name. -/
def ofKey (withSchema : Bool) (cs : List Column) (k : TableKey) : Table :=
  ⟨k.schema, k.table, declaredName withSchema k, columnsOf cs k⟩

theorem key_ofKey (withSchema : Bool) (cs : List Column) (k : TableKey) :
    (ofKey withSchema cs k).key = k := rfl

/-- A column adds to its own table and leaves the others as they are. -/
theorem ofKey_append_singleton (withSchema : Bool) (cs : List Column) (c : Column)
    (k : TableKey) :
    ofKey withSchema (cs ++ [c]) k =
      if c.key = k then (ofKey withSchema cs k).push c else ofKey withSchema cs k := by
  rw [ofKey, Catalog.columnsOf_append_singleton]
  split_ifs
  · rfl
  · rw [List.append_nil, ofKey]

theorem add_ofKey {withSchema : Bool} {cs : List Column} {c : Column} {ks : List TableKey}
    (nodup : ks.Nodup) (fresh : c.key ∉ ks → columnsOf cs c.key = []) :
    add withSchema c (ks.map (ofKey withSchema cs)) =
      (if c.key ∈ ks then ks else ks ++ [c.key]).map (ofKey withSchema (cs ++ [c])) := by
  induction ks with
  | nil =>
    have first : ofKey withSchema (cs ++ [c]) c.key = ofColumn withSchema c := by
      rw [ofKey_append_singleton, if_pos rfl, ofKey, fresh List.not_mem_nil]
      rfl
    simp [add, first]
  | cons k ks ih =>
    obtain ⟨hk, nodup⟩ := List.nodup_cons.mp nodup
    rw [List.map_cons, add, key_ofKey]
    by_cases h : k = c.key
    -- The keys are different, so no table behind this one gets the column too.
    · have others : ks.map (ofKey withSchema (cs ++ [c])) = ks.map (ofKey withSchema cs) := by
        apply List.map_congr_left
        intro k' hk'
        have ne : c.key ≠ k' := fun he => hk (by rw [h, he]; exact hk')
        rw [ofKey_append_singleton, if_neg ne]
      rw [if_pos h, if_pos (List.mem_cons.mpr (.inl h.symm)), List.map_cons, others,
        ofKey_append_singleton, if_pos h.symm]
    · have same : ofKey withSchema cs k = ofKey withSchema (cs ++ [c]) k := by
        rw [ofKey_append_singleton, if_neg (Ne.symm h)]
      have tail := ih nodup fun hn => fresh fun hm => by
        rcases List.mem_cons.mp hm with he | hm
        · exact h he.symm
        · exact hn hm
      have member : c.key ∈ k :: ks ↔ c.key ∈ ks := by simp [Ne.symm h]
      rw [if_neg h, tail, same]
      split_ifs <;> simp_all

/-- The tables of a catalog, in closed form. -/
theorem ofColumns_eq (withSchema : Bool) (cs : List Column) :
    ofColumns withSchema cs = (tableKeys cs).map (ofKey withSchema cs) := by
  induction cs using List.reverseRecOn with
  | nil => rfl
  | append_singleton cs c ih =>
    have step : ofColumns withSchema (cs ++ [c]) = add withSchema c (ofColumns withSchema cs) := by
      rw [ofColumns, List.foldl_append]
      rfl
    rw [step, ih, Catalog.tableKeys_append_singleton]
    exact add_ofKey (Catalog.nodup_tableKeys cs) Catalog.columnsOf_eq_nil

end Table

end TypedDecl
