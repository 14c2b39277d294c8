import Mathlib.Data.List.Perm.Basic
import TypedDecl.Catalog.Model
import TypedDecl.Proofs.Distinct
import TypedDecl.Proofs.Grouping

namespace TypedDecl

namespace TypeMap

/-- The map has no entry for a native type, in whichever case its letters A to Z are. -/
def Lacks (types : TypeMap) (native : String) : Prop :=
  ∀ e ∈ types.targets.entries, foldCase e.1 ≠ foldCase native

instance (types : TypeMap) (native : String) : Decidable (types.Lacks native) :=
  inferInstanceAs (Decidable (∀ e ∈ types.targets.entries, foldCase e.1 ≠ foldCase native))

theorem get?_eq_none_iff {types : TypeMap} {native : String} :
    types.get? native = none ↔ types.Lacks native := by
  rw [get?, Dictionary.get?, List.lookup_eq_none_iff]
  refine forall_congr' fun e => forall_congr' fun he => ?_
  rw [types.folded e he, bne_iff_ne, ne_comm]

/-- The type for a column that has one. -/
def target (types : TypeMap) (c : Column) : String := (types.get? c.native).getD ""

theorem get?_target {types : TypeMap} {c : Column} (h : ¬types.Lacks c.native) :
    types.get? c.native = some (types.target c) := by
  rw [← get?_eq_none_iff] at h
  obtain ⟨ty, hty⟩ := Option.ne_none_iff_exists'.mp h
  rw [target, hty]
  rfl

theorem resolve_eq (types : TypeMap) (c : Column) :
    types.resolve c =
      if types.Lacks c.native then .error (.unsupportedType c) else .ok (types.target c) := by
  split_ifs with h
  · rw [resolve, get?_eq_none_iff.mpr h]
  · rw [resolve, get?_target h]

end TypeMap

namespace Catalog

/-- The columns whose native type the map lacks, table by table. -/
def unmapped? (types : TypeMap) (cs : List Column) : Option Column :=
  cs.find? fun c => types.Lacks c.native

theorem unmapped?_cons (types : TypeMap) (c : Column) (cs : List Column) :
    unmapped? types (c :: cs) = if types.Lacks c.native then some c else unmapped? types cs := by
  rw [unmapped?, List.find?_cons]
  by_cases h : types.Lacks c.native <;> simp [h, unmapped?]

theorem unmapped?_append (types : TypeMap) (a b : List Column) :
    unmapped? types (a ++ b) = (unmapped? types a).or (unmapped? types b) :=
  List.find?_append

/-- The name of the declaration of a column. -/
def wrapperName (withSchema : Bool) (c : Column) : String :=
  Table.declaredName withSchema c.key ++ "_" ++ Name.sanitize c.name

end Catalog

namespace Table

open Catalog (tableKeys columnsOf grouped unmapped? wrapperName)

/-- The declaration of a column that has a type. -/
def wrapper (types : TypeMap) (t : Table) (c : Column) : Declaration :=
  ⟨t.fieldName c, .field (types.target c), []⟩

/-- The declarations of a table whose columns all have types. -/
def described (types : TypeMap) (t : Table) : List Declaration :=
  t.declaration :: t.columns.map (t.wrapper types)

theorem mapM_field_eq (types : TypeMap) (t : Table) (cs : List Column) :
    cs.mapM (t.field types) =
      match unmapped? types cs with
      | some c => .error (.unsupportedType c)
      | none => .ok (cs.map (t.wrapper types)) := by
  induction cs with
  | nil => rfl
  | cons c cs ih =>
    rw [List.mapM_cons, ih, field, TypeMap.resolve_eq, Catalog.unmapped?_cons]
    by_cases h : types.Lacks c.native
    · rw [if_pos h, if_pos h]
      rfl
    · rw [if_neg h, if_neg h]
      cases unmapped? types cs <;> rfl

theorem declarations_eq (types : TypeMap) (t : Table) :
    t.declarations types =
      match unmapped? types t.columns with
      | some c => .error (.unsupportedType c)
      | none => .ok (t.described types) := by
  rw [declarations, mapM_field_eq]
  cases unmapped? types t.columns <;> rfl

theorem mapM_declarations_eq (types : TypeMap) (ts : List Table) :
    ts.mapM (declarations types) =
      match unmapped? types (ts.flatMap columns) with
      | some c => .error (.unsupportedType c)
      | none => .ok (ts.map (described types)) := by
  induction ts with
  | nil => rfl
  | cons t ts ih =>
    rw [List.mapM_cons, ih, declarations_eq, List.flatMap_cons, Catalog.unmapped?_append]
    cases unmapped? types t.columns with
    | some c => rfl
    | none => cases unmapped? types (ts.flatMap columns) <;> rfl

theorem flatMap_columns_ofColumns (withSchema : Bool) (cs : List Column) :
    (ofColumns withSchema cs).flatMap columns = grouped cs := by
  rw [ofColumns_eq, List.flatMap_map]
  rfl

end Table

namespace Catalog

/-- The declarations of a catalog whose columns all have types. -/
def description (options : CatalogOptions) (cs : List Column) : List Declaration :=
  Table.registry options.registry (Table.ofColumns options.withSchema cs) ::
    (Table.ofColumns options.withSchema cs).flatMap (Table.described options.types)

end Catalog

namespace Table

open Catalog (columnsOf wrapperName)

theorem fieldName_ofKey {withSchema : Bool} {cs : List Column} {k : TableKey} {c : Column}
    (h : c ∈ columnsOf cs k) : (ofKey withSchema cs k).fieldName c = wrapperName withSchema c := by
  obtain ⟨_, rfl⟩ := Catalog.mem_columnsOf.mp h
  rfl

theorem names_described (types : TypeMap) (withSchema : Bool) (cs : List Column) (k : TableKey) :
    ((ofKey withSchema cs k).described types).map Declaration.name =
      declaredName withSchema k :: (columnsOf cs k).map (wrapperName withSchema) := by
  rw [described, List.map_cons, List.map_map]
  congr 1
  exact List.map_congr_left fun c hc => fieldName_ofKey hc

end Table

namespace Catalog

/-- All names that a catalog declares: the registry, the tables, the columns. -/
def names (options : CatalogOptions) (cs : List Column) : List String :=
  options.registry :: ((tableKeys cs).map (Table.declaredName options.withSchema) ++
    cs.map (wrapperName options.withSchema))

theorem mem_description {options : CatalogOptions} {cs : List Column} {d : Declaration} :
    d ∈ description options cs ↔
      d = Table.registry options.registry (Table.ofColumns options.withSchema cs) ∨
      (∃ k ∈ tableKeys cs, d = (Table.ofKey options.withSchema cs k).declaration) ∨
      ∃ k ∈ tableKeys cs, ∃ c ∈ columnsOf cs k,
        d = (Table.ofKey options.withSchema cs k).wrapper options.types c := by
  rw [description, Table.ofColumns_eq, List.flatMap_map, List.mem_cons, List.mem_flatMap,
    ← exists_or]
  refine or_congr_right (exists_congr fun k => ?_)
  rw [Table.described, List.mem_cons, List.mem_map, ← and_or_left]
  refine and_congr_right fun _ => or_congr_right (exists_congr fun c => ?_)
  exact and_congr_right fun _ => eq_comm

theorem declaration_mem (options : CatalogOptions) {cs : List Column} {k : TableKey}
    (hk : k ∈ tableKeys cs) :
    (Table.ofKey options.withSchema cs k).declaration ∈ description options cs :=
  mem_description.mpr (.inr (.inl ⟨k, hk, rfl⟩))

theorem wrapper_mem (options : CatalogOptions) {cs : List Column} {k : TableKey}
    (hk : k ∈ tableKeys cs) {c : Column} (hc : c ∈ columnsOf cs k) :
    (Table.ofKey options.withSchema cs k).wrapper options.types c ∈ description options cs :=
  mem_description.mpr (.inr (.inr ⟨k, hk, c, hc, rfl⟩))

/-- The declarations of tables among them all. -/
theorem filter_isTable_description (options : CatalogOptions) (cs : List Column) :
    (description options cs).filter (·.kind.isTable) =
      (tableKeys cs).map fun k => (Table.ofKey options.withSchema cs k).declaration := by
  have one (k : TableKey) : ((Table.ofKey options.withSchema cs k).described options.types).filter
      (·.kind.isTable) = [(Table.ofKey options.withSchema cs k).declaration] := by
    have none : ((columnsOf cs k).map
        ((Table.ofKey options.withSchema cs k).wrapper options.types)).filter
          (·.kind.isTable) = [] := by
      simp [Table.wrapper, Kind.isTable]
    rw [Table.described, List.filter_cons_of_pos rfl]
    exact congrArg _ none
  have registry : (Table.registry options.registry
      (Table.ofColumns options.withSchema cs)).kind.isTable = false := rfl
  rw [description, List.filter_cons, registry, Table.ofColumns_eq, List.flatMap_map,
    List.filter_flatMap]
  simp only [Bool.false_eq_true, if_false, one, ← List.map_eq_flatMap]

/-- The names of tables and columns, table by table. -/
theorem names_tables_perm (withSchema : Bool) (cs : List Column) :
    ((tableKeys cs).flatMap fun k => Table.declaredName withSchema k ::
      (columnsOf cs k).map (wrapperName withSchema)).Perm
        ((tableKeys cs).map (Table.declaredName withSchema) ++ cs.map (wrapperName withSchema)) := by
  have columns : ((tableKeys cs).flatMap fun k => (columnsOf cs k).map (wrapperName withSchema)).Perm
      (cs.map (wrapperName withSchema)) := by
    rw [← List.map_flatMap]
    exact (grouped_perm cs).map _
  exact (List.map_append_flatMap_perm _ _ _).symm.trans (columns.append_left _)

theorem names_description (options : CatalogOptions) (cs : List Column) :
    ((description options cs).map Declaration.name).Perm (names options cs) := by
  have tables : (tableKeys cs).flatMap (fun k =>
        ((Table.ofKey options.withSchema cs k).described options.types).map Declaration.name) =
      (tableKeys cs).flatMap fun k => Table.declaredName options.withSchema k ::
        (columnsOf cs k).map (wrapperName options.withSchema) :=
    List.flatMap_congr fun k _ => Table.names_described options.types options.withSchema cs k
  rw [description, List.map_cons, List.map_flatMap, Table.ofColumns_eq, List.flatMap_map, tables]
  exact .cons _ (names_tables_perm options.withSchema cs)

/-- Columns of one table whose declarations have different names have different names too. -/
theorem nodup_members {withSchema : Bool} {cs : List Column}
    (h : (cs.map (wrapperName withSchema)).Nodup) (k : TableKey) :
    ((columnsOf cs k).map fun c => Name.sanitize c.name).Nodup := by
  have wrappers : ((columnsOf cs k).map (wrapperName withSchema)).Nodup :=
    h.sublist (List.filter_sublist.map _)
  have joined : (columnsOf cs k).map (wrapperName withSchema) =
      ((columnsOf cs k).map fun c => Name.sanitize c.name).map
        (Table.declaredName withSchema k ++ "_" ++ ·) := by
    rw [List.map_map]
    apply List.map_congr_left
    intro c hc
    obtain ⟨_, rfl⟩ := mem_columnsOf.mp hc
    rfl
  rw [joined] at wrappers
  exact wrappers.of_map _

/-- The members of the registry and of the tables have different names as soon as the declarations
have, except that a table reserves one. -/
theorem distinct_description {options : CatalogOptions} {cs : List Column} :
    Declaration.Distinct (description options cs) ↔
      (names options cs).Nodup ∧ ∀ c ∈ cs, Name.sanitize c.name ≠ handleName := by
  rw [Declaration.Distinct, (names_description options cs).nodup_iff]
  apply and_congr_right
  intro nodup
  obtain ⟨_, nodup⟩ := List.nodup_cons.mp nodup
  obtain ⟨tables, columns, _⟩ := List.nodup_append.mp nodup
  have table (k : TableKey) :
      (Table.ofKey options.withSchema cs k).declaration.MembersDistinct ↔
        ∀ c ∈ columnsOf cs k, Name.sanitize c.name ≠ handleName := by
    have members : (Table.ofKey options.withSchema cs k).declaration.members.map Member.name =
        (columnsOf cs k).map fun c => Name.sanitize c.name := List.map_map
    rw [Declaration.MembersDistinct, members]
    simp [nodup_members columns k, Table.declaration, Table.ofKey, Table.member,
      Declaration.reserved, Kind.isTable]
  constructor
  · intro h c hc
    have key : c.key ∈ tableKeys cs := mem_tableKeys.mpr ⟨c, hc, rfl⟩
    exact (table c.key).mp (h _ (declaration_mem options key)) c (mem_columnsOf.mpr ⟨hc, rfl⟩)
  · intro h d hd
    rcases mem_description.mp hd with rfl | ⟨k, _, rfl⟩ | ⟨k, _, c, _, rfl⟩
    -- The members of the registry are named as the tables are.
    · refine ⟨?_, fun m _ => List.not_mem_nil⟩
      rw [Table.registry, List.map_map, Table.ofColumns_eq, List.map_map]
      exact tables
    · exact (table k).mpr fun c hc => h c (mem_columnsOf.mp hc).1
    · exact ⟨List.nodup_nil, fun m hm => absurd hm List.not_mem_nil⟩

end Catalog

open Catalog in
/-- The declarations of tables, in closed form. -/
theorem Table.describe_eq (options : CatalogOptions) (ts : List Table) :
    describe options ts =
      match unmapped? options.types (ts.flatMap columns) with
      | some c => .error (.unsupportedType c)
      | none => .ok (registry options.registry ts :: ts.flatMap (described options.types)) := by
  rw [describe, mapM_declarations_eq]
  cases unmapped? options.types (ts.flatMap columns) with
  | some c => rfl
  | none =>
    rw [List.flatMap_def]
    rfl

open Catalog in
/-- The model of a catalog, in closed form. -/
theorem CatalogModel.ofColumns_eq (options : CatalogOptions) (cs : List Column) :
    ofColumns options cs =
      match unmapped? options.types (grouped cs) with
      | some c => .error (.unsupportedType c)
      | none => (Declaration.checkDistinct (description options cs)).map fun _ =>
        ⟨Table.ofColumns options.withSchema cs, description options cs⟩ := by
  rw [ofColumns, Table.describe_eq, Table.flatMap_columns_ofColumns]
  cases unmapped? options.types (grouped cs) <;> rfl

end TypedDecl
