import TypedDecl.Catalog.Model
import TypedDecl.Proofs.TablePartition

namespace TypedDecl

namespace Catalog

/-- Each table has the same columns in the same order, and the tables come in the same order. -/
structure SameByTable (cs cs' : List Column) : Prop where
  columns : ∀ k, cs.filter (·.key = k) = cs'.filter (·.key = k)
  order : ∀ c ∈ cs, ∀ c' ∈ cs,
    ((cs.map Column.key).idxOf c.key < (cs.map Column.key).idxOf c'.key ↔
      (cs'.map Column.key).idxOf c.key < (cs'.map Column.key).idxOf c'.key)

/-- Between two columns of one table stand only columns of that table. -/
def TableByTable (cs : List Column) : Prop :=
  cs.Triplewise fun a b c => a.key = c.key → b.key = a.key

theorem columnsOf_append (a b : List Column) (k : TableKey) :
    columnsOf (a ++ b) k = columnsOf a k ++ columnsOf b k :=
  List.filter_append a b

/-- Columns of other tables come with tables of their own. -/
theorem tableKeys_append {a b : List Column} (apart : ∀ c ∈ a, ∀ c' ∈ b, c.key ≠ c'.key) :
    tableKeys (a ++ b) = tableKeys a ++ tableKeys b := by
  have new : (b.map Column.key).removeAll (a.map Column.key) = b.map Column.key := by
    rw [List.removeAll, List.filter_eq_self]
    intro k hk
    obtain ⟨c', hc', rfl⟩ := List.mem_map.mp hk
    have fresh : c'.key ∉ a.map Column.key := by
      intro known
      obtain ⟨c, hc, same⟩ := List.mem_map.mp known
      exact apart c hc c' hc' same
    simpa using fresh
  rw [tableKeys, List.map_append, List.eraseDups_append, new, tableKeys, tableKeys]

theorem tableKeys_of_one {cs : List Column} {k : TableKey} (own : ∀ c ∈ cs, c.key = k)
    (some : cs ≠ []) : tableKeys cs = [k] := by
  obtain ⟨c, hc⟩ := List.exists_mem_of_ne_nil cs some
  have members : ∀ k', k' ∈ tableKeys cs ↔ k' ∈ [k] := by
    intro k'
    rw [mem_tableKeys, List.mem_singleton]
    constructor
    · rintro ⟨c', hc', rfl⟩
      exact own c' hc'
    · rintro rfl
      exact ⟨c, hc, own c hc⟩
  exact List.perm_singleton.mp
    ((List.perm_ext_iff_of_nodup (nodup_tableKeys cs) (List.nodup_singleton k)).mpr members)

section Blocks

variable {ks : List TableKey} {block : TableKey → List Column}

theorem ne_key_of_flatMap (own : ∀ k ∈ ks, ∀ c ∈ block k, c.key = k) {k : TableKey} (fresh : k ∉ ks)
    {c : Column} (hc : c ∈ ks.flatMap block) : c.key ≠ k := by
  obtain ⟨k', hk', hc⟩ := List.mem_flatMap.mp hc
  rintro rfl
  rw [own k' hk' c hc] at fresh
  exact fresh hk'

theorem tableKeys_flatMap (nodup : ks.Nodup) (own : ∀ k ∈ ks, ∀ c ∈ block k, c.key = k)
    (some : ∀ k ∈ ks, block k ≠ []) : tableKeys (ks.flatMap block) = ks := by
  induction ks with
  | nil => rfl
  | cons k ks ih =>
    obtain ⟨fresh, nodup⟩ := List.nodup_cons.mp nodup
    obtain ⟨here, others⟩ := List.forall_mem_cons.mp own
    obtain ⟨first, rest⟩ := List.forall_mem_cons.mp some
    have apart : ∀ c ∈ block k, ∀ c' ∈ ks.flatMap block, c.key ≠ c'.key := by
      intro c hc c' hc'
      rw [here c hc]
      exact (ne_key_of_flatMap others fresh hc').symm
    rw [List.flatMap_cons, tableKeys_append apart, tableKeys_of_one here first,
      ih nodup others rest, List.singleton_append]

theorem columnsOf_flatMap (nodup : ks.Nodup) (own : ∀ k ∈ ks, ∀ c ∈ block k, c.key = k)
    (k : TableKey) : columnsOf (ks.flatMap block) k = if k ∈ ks then block k else [] := by
  induction ks with
  | nil => rfl
  | cons k' ks ih =>
    obtain ⟨fresh, nodup⟩ := List.nodup_cons.mp nodup
    obtain ⟨here, others⟩ := List.forall_mem_cons.mp own
    rw [List.flatMap_cons, columnsOf_append, ih nodup others]
    by_cases same : k = k'
    · subst same
      have all : columnsOf (block k) k = block k := by
        rw [columnsOf, List.filter_eq_self]
        intro c hc
        exact decide_eq_true (here c hc)
      rw [all, if_neg fresh, if_pos List.mem_cons_self, List.append_nil]
    · have none : columnsOf (block k') k = [] := by
        rw [columnsOf, List.filter_eq_nil_iff]
        intro c hc
        rw [here c hc, decide_eq_true_eq]
        exact Ne.symm same
      rw [none, List.nil_append]
      simp only [List.mem_cons, same, false_or]

theorem tableByTable_flatMap (nodup : ks.Nodup) (own : ∀ k ∈ ks, ∀ c ∈ block k, c.key = k) :
    TableByTable (ks.flatMap block) := by
  induction ks with
  | nil => exact .nil
  | cons k ks ih =>
    obtain ⟨fresh, nodup⟩ := List.nodup_cons.mp nodup
    obtain ⟨here, others⟩ := List.forall_mem_cons.mp own
    have inside : (block k).Triplewise fun a b c => a.key = c.key → b.key = a.key := by
      rw [List.triplewise_iff_getElem]
      intro i j l _ _ _ _
      rw [here _ (List.getElem_mem _), here _ (List.getElem_mem _)]
    have behind : ∀ a ∈ block k,
        (ks.flatMap block).Pairwise fun b c => a.key = c.key → b.key = a.key := by
      intro a ha
      apply List.pairwise_of_forall_mem_list
      intro b _ c hc same
      rw [here a ha] at same
      exact absurd same.symm (ne_key_of_flatMap others fresh hc)
    have before : ∀ c ∈ ks.flatMap block,
        (block k).Pairwise fun a b => a.key = c.key → b.key = a.key := by
      intro c _
      apply List.pairwise_of_forall_mem_list
      intro a ha b hb _
      rw [here a ha, here b hb]
    rw [List.flatMap_cons]
    exact List.triplewise_append.mpr ⟨inside, ih nodup others, behind, before⟩

end Blocks

section Grouped

variable (cs : List Column)

theorem key_of_mem_columnsOf : ∀ k ∈ tableKeys cs, ∀ c ∈ columnsOf cs k, c.key = k :=
  fun _ _ _ hc => (mem_columnsOf.mp hc).2

theorem columnsOf_ne_nil : ∀ k ∈ tableKeys cs, columnsOf cs k ≠ [] := by
  intro k hk
  obtain ⟨c, hc, same⟩ := mem_tableKeys.mp hk
  exact List.ne_nil_of_mem (mem_columnsOf.mpr ⟨hc, same⟩)

theorem tableKeys_grouped : tableKeys (grouped cs) = tableKeys cs :=
  tableKeys_flatMap (nodup_tableKeys cs) (key_of_mem_columnsOf cs) (columnsOf_ne_nil cs)

theorem columnsOf_grouped (k : TableKey) : columnsOf (grouped cs) k = columnsOf cs k := by
  rw [grouped, columnsOf_flatMap (nodup_tableKeys cs) (key_of_mem_columnsOf cs)]
  split_ifs with known
  · rfl
  · exact (columnsOf_eq_nil known).symm

theorem tableByTable_grouped : TableByTable (grouped cs) :=
  tableByTable_flatMap (nodup_tableKeys cs) (key_of_mem_columnsOf cs)

end Grouped

variable {cs cs' : List Column}

/-- The table whose first column comes first is the first of the two. -/
theorem idxOf_key_lt_iff {k k' : TableKey} (hk : k ∈ tableKeys cs) (hk' : k' ∈ tableKeys cs) :
    (cs.map Column.key).idxOf k < (cs.map Column.key).idxOf k' ↔
      (tableKeys cs).idxOf k < (tableKeys cs).idxOf k' := by
  have pairs := List.pairwise_iff_getElem.mp (pairwise_tableKeys cs)
  have forward {x y : TableKey} (hx : x ∈ tableKeys cs) (hy : y ∈ tableKeys cs)
      (before : (tableKeys cs).idxOf x < (tableKeys cs).idxOf y) :
      (cs.map Column.key).idxOf x < (cs.map Column.key).idxOf y := by
    have := pairs _ _ (List.idxOf_lt_length_of_mem hx) (List.idxOf_lt_length_of_mem hy) before
    rwa [List.getElem_idxOf, List.getElem_idxOf] at this
  constructor
  · intro earlier
    rcases Nat.lt_trichotomy ((tableKeys cs).idxOf k) ((tableKeys cs).idxOf k') with
      before | same | behind
    · exact before
    · rw [(List.idxOf_inj hk).mp same] at earlier
      exact absurd earlier (Nat.lt_irrefl _)
    · exact absurd (forward hk' hk behind) (Nat.lt_asymm earlier)
  · exact forward hk hk'

theorem SameByTable.of_tableKeys (keys : tableKeys cs = tableKeys cs')
    (columns : ∀ k, columnsOf cs k = columnsOf cs' k) : SameByTable cs cs' := by
  refine ⟨columns, ?_⟩
  intro c hc c' hc'
  have known : c.key ∈ tableKeys cs := mem_tableKeys.mpr ⟨c, hc, rfl⟩
  have known' : c'.key ∈ tableKeys cs := mem_tableKeys.mpr ⟨c', hc', rfl⟩
  rw [idxOf_key_lt_iff known known', keys, idxOf_key_lt_iff (keys ▸ known) (keys ▸ known')]

theorem SameByTable.tableKeys_eq (h : SameByTable cs cs') : tableKeys cs = tableKeys cs' := by
  have columns (k : TableKey) : columnsOf cs k = columnsOf cs' k := h.columns k
  have members : ∀ k, k ∈ tableKeys cs ↔ k ∈ tableKeys cs' := by
    intro k
    rw [← not_iff_not]
    constructor
    · intro unknown known
      exact columnsOf_ne_nil cs' k known (columns k ▸ columnsOf_eq_nil unknown)
    · intro unknown known
      exact columnsOf_ne_nil cs k known ((columns k).trans (columnsOf_eq_nil unknown))
  have perm : (tableKeys cs).Perm (tableKeys cs') :=
    (List.perm_ext_iff_of_nodup (nodup_tableKeys cs) (nodup_tableKeys cs')).mpr members
  -- Both lists are sorted by where the first columns stand in one of the catalogs.
  have sorted : (tableKeys cs').Pairwise fun k k' =>
      (cs.map Column.key).idxOf k < (cs.map Column.key).idxOf k' := by
    apply (pairwise_tableKeys cs').imp_of_mem
    intro k k' hk hk' before
    obtain ⟨c, hc, rfl⟩ := mem_tableKeys.mp ((members k).mpr hk)
    obtain ⟨c', hc', rfl⟩ := mem_tableKeys.mp ((members k').mpr hk')
    exact (h.order c hc c' hc').mpr before
  apply perm.eq_of_pairwise _ (pairwise_tableKeys cs) sorted
  intro k k' _ _ before behind
  exact absurd before (Nat.lt_asymm behind)

theorem sameByTable_iff : SameByTable cs cs' ↔ grouped cs = grouped cs' := by
  constructor
  · intro h
    rw [grouped, grouped, h.tableKeys_eq]
    exact List.flatMap_congr fun k _ => h.columns k
  · intro same
    apply SameByTable.of_tableKeys
    · rw [← tableKeys_grouped cs, same, tableKeys_grouped]
    · intro k
      rw [← columnsOf_grouped cs, same, columnsOf_grouped]

instance (cs cs' : List Column) : Decidable (SameByTable cs cs') :=
  decidable_of_iff _ sameByTable_iff.symm

theorem sameByTable_grouped (cs : List Column) : SameByTable cs (grouped cs) :=
  .of_tableKeys (tableKeys_grouped cs).symm fun k => (columnsOf_grouped cs k).symm

end Catalog

open Catalog (grouped SameByTable TableByTable)

theorem Table.ofKey_congr {cs cs' : List Column} (h : SameByTable cs cs') (withSchema : Bool) :
    ofKey withSchema cs = ofKey withSchema cs' := by
  funext k
  exact congrArg (Table.mk k.schema k.table (declaredName withSchema k)) (h.columns k)

theorem Table.ofColumns_congr {cs cs' : List Column} (h : SameByTable cs cs') (withSchema : Bool) :
    ofColumns withSchema cs = ofColumns withSchema cs' := by
  rw [ofColumns_eq, ofColumns_eq, h.tableKeys_eq, ofKey_congr h]

namespace TableMap

/-- The index is known from the entries. -/
theorem places_congr {m m' : TableMap} (same : m.entries = m'.entries) (k : TableKey) :
    m.places.get? k = m'.places.get? k := by
  apply Option.ext
  intro i
  rw [m.placed, m'.placed, same]

theorem entries_congr {cs cs' : List Column} (h : SameByTable cs cs') (withSchema : Bool) :
    (ofColumns withSchema cs).entries = (ofColumns withSchema cs').entries := by
  rw [entries_ofColumns, entries_ofColumns, entriesOf, entriesOf, h.tableKeys_eq,
    Table.ofKey_congr h]

end TableMap

namespace CatalogModel

theorem ofColumns_congr (options : CatalogOptions) {cs cs' : List Column} (h : SameByTable cs cs') :
    ofColumns options cs = ofColumns options cs' := by
  rw [ofColumns, ofColumns, Table.ofColumns_congr h]

/-- What a catalog becomes, be it a model or an error, does not depend on how the columns of
different tables alternate in it. So it makes no difference to have them table by table. -/
theorem ofColumns_of_sameByTable (options : CatalogOptions) {cs cs' : List Column}
    (h : SameByTable cs cs') :
    ofColumns options cs = ofColumns options cs' ∧
      (TableMap.ofColumns options.withSchema cs).entries =
        (TableMap.ofColumns options.withSchema cs').entries ∧
      (∀ k, (TableMap.ofColumns options.withSchema cs).places.get? k =
        (TableMap.ofColumns options.withSchema cs').places.get? k) ∧
      TableByTable (grouped cs) ∧ (grouped cs).Perm cs ∧ SameByTable cs (grouped cs) ∧
      ofColumns options cs = ofColumns options (grouped cs) := by
  have entries := TableMap.entries_congr h options.withSchema
  have own := Catalog.sameByTable_grouped cs
  exact ⟨ofColumns_congr options h, entries, TableMap.places_congr entries,
    Catalog.tableByTable_grouped cs, Catalog.grouped_perm cs, own, ofColumns_congr options own⟩

/-- The first column without a type is another one in each of the catalogs, and the error is the
same. -/
theorem ofColumns_of_alternating : ∃ cs cs' : List Column,
    cs = [⟨"dbo", "Posts", "Id", "int"⟩, ⟨"dbo", "Users", "Site", "geometry"⟩,
      ⟨"dbo", "Posts", "Tree", "hierarchyid"⟩] ∧
    cs' = [⟨"dbo", "Posts", "Id", "int"⟩, ⟨"dbo", "Posts", "Tree", "hierarchyid"⟩,
      ⟨"dbo", "Users", "Site", "geometry"⟩] ∧
    SameByTable cs cs' ∧
    ofColumns ⟨true, "SQL", .standard⟩ cs = ofColumns ⟨true, "SQL", .standard⟩ cs' ∧
    ofColumns ⟨true, "SQL", .standard⟩ cs' =
      .error (.unsupportedType ⟨"dbo", "Posts", "Tree", "hierarchyid"⟩) :=
  ⟨_, _, rfl, rfl, by decide +kernel, (ofColumns_of_sameByTable _ (by decide +kernel)).1,
    by decide +kernel⟩

end CatalogModel

end TypedDecl
