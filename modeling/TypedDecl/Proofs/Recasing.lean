import TypedDecl.Proofs.Describing
import TypedDecl.Proofs.TypeMaps

namespace TypedDecl

open Text (SameUpToCase foldCase_eq_iff)

/-- The same column, but for the case of its native type. -/
structure Column.Recased (c c' : Column) : Prop where
  schema : c'.schema = c.schema
  table : c'.table = c.table
  name : c'.name = c.name
  native : SameUpToCase c.native c'.native

namespace Catalog

/-- The same columns, but for the case of their native types. -/
abbrev Recased (cs cs' : List Column) : Prop := List.Forall₂ Column.Recased cs cs'

/-- The same declarations, or the same error, but for the case of a native type that is shown in
it. -/
inductive SameOutcome : Except Error CatalogModel → Except Error CatalogModel → Prop
  | ok {m m' : CatalogModel} (declarations : m'.declarations = m.declarations) :
      SameOutcome (.ok m) (.ok m')
  | unsupported {c c' : Column} (recased : c.Recased c') :
      SameOutcome (.error (.unsupportedType c)) (.error (.unsupportedType c'))
  | error (e : Error) : SameOutcome (.error e) (.error e)

variable {c c' : Column} {cs cs' : List Column}

theorem Recased.map_eq {α : Type} {f : Column → α} (h : Recased cs cs')
    (same : ∀ {c c' : Column}, c.Recased c' → f c' = f c) : cs'.map f = cs.map f := by
  induction h with
  | nil => rfl
  | cons first _ ih => rw [List.map_cons, List.map_cons, same first, ih]

theorem key_recased (h : c.Recased c') : c'.key = c.key := by
  rw [Column.key, Column.key, h.schema, h.table]

theorem tableKeys_recased (h : Recased cs cs') : tableKeys cs' = tableKeys cs := by
  rw [tableKeys, tableKeys, h.map_eq key_recased]

theorem columnsOf_recased (h : Recased cs cs') (k : TableKey) :
    Recased (columnsOf cs k) (columnsOf cs' k) := by
  refine List.rel_filter (fun c c' recased => ?_) h
  change decide (c.key = k) = true ↔ decide (c'.key = k) = true
  rw [key_recased recased]

theorem grouped_recased (h : Recased cs cs') : Recased (grouped cs) (grouped cs') := by
  have keys : List.Forall₂ Eq (tableKeys cs) (tableKeys cs') := by
    rw [tableKeys_recased h, List.forall₂_eq_eq_eq]
  refine List.rel_flatMap keys ?_
  rintro k _ rfl
  exact columnsOf_recased h k

theorem lacks_recased (types : TypeMap) (h : c.Recased c') :
    types.Lacks c'.native ↔ types.Lacks c.native := by
  rw [TypeMap.Lacks, TypeMap.Lacks, foldCase_eq_iff.mpr h.native]

theorem target_recased (types : TypeMap) (h : c.Recased c') : types.target c' = types.target c := by
  rw [TypeMap.target, TypeMap.target, TypeMap.get?, TypeMap.get?, foldCase_eq_iff.mpr h.native]

theorem unmapped?_recased (types : TypeMap) (h : Recased cs cs') :
    Option.Rel Column.Recased (unmapped? types cs) (unmapped? types cs') := by
  induction h with
  | nil => exact .none
  | @cons c c' _ _ first _ ih =>
    rw [unmapped?_cons, unmapped?_cons]
    by_cases lacks : types.Lacks c.native
    · rw [if_pos lacks, if_pos ((lacks_recased types first).mpr lacks)]
      exact .some first
    · rw [if_neg lacks, if_neg (mt (lacks_recased types first).mp lacks)]
      exact ih

theorem described_recased (types : TypeMap) (withSchema : Bool) (h : Recased cs cs')
    (k : TableKey) :
    (Table.ofKey withSchema cs' k).described types =
      (Table.ofKey withSchema cs k).described types := by
  have columns := columnsOf_recased h k
  have members : (columnsOf cs' k).map (Table.ofKey withSchema cs' k).member =
      (columnsOf cs k).map (Table.ofKey withSchema cs k).member := by
    refine columns.map_eq fun {c c'} recased => ?_
    rw [Table.member, Table.member, Table.fieldName, Table.fieldName, recased.name]
  have wrappers : (columnsOf cs' k).map ((Table.ofKey withSchema cs' k).wrapper types) =
      (columnsOf cs k).map ((Table.ofKey withSchema cs k).wrapper types) := by
    refine columns.map_eq fun {c c'} recased => ?_
    rw [Table.wrapper, Table.wrapper, Table.fieldName, Table.fieldName, recased.name,
      target_recased types recased]
  rw [Table.described, Table.described]
  exact congrArg₂ List.cons (congrArg (Declaration.mk _ _) members) wrappers

theorem description_recased (options : CatalogOptions) (h : Recased cs cs') :
    description options cs' = description options cs := by
  have entries : (tableKeys cs).map (Table.entry ∘ Table.ofKey options.withSchema cs') =
      (tableKeys cs).map (Table.entry ∘ Table.ofKey options.withSchema cs) := rfl
  rw [description, description, Table.ofColumns_eq, Table.ofColumns_eq, tableKeys_recased h,
    Table.registry, Table.registry, List.map_map, List.map_map, entries, List.flatMap_map,
    List.flatMap_map]
  exact congrArg _ (List.flatMap_congr fun k _ => described_recased options.types _ h k)

/-- The case of native types makes no difference to what is declared. -/
theorem ofColumns_recased (options : CatalogOptions) (h : Recased cs cs') :
    SameOutcome (CatalogModel.ofColumns options cs) (CatalogModel.ofColumns options cs') := by
  rw [CatalogModel.ofColumns_eq, CatalogModel.ofColumns_eq, description_recased options h]
  have unmapped := unmapped?_recased options.types (grouped_recased h)
  revert unmapped
  generalize unmapped? options.types (grouped cs) = u
  generalize unmapped? options.types (grouped cs') = u'
  intro unmapped
  cases unmapped with
  | none =>
    cases Declaration.checkDistinct (description options cs) with
    | error e => exact .error e
    | ok _ => exact .ok rfl
  | some recased => exact .unsupported recased

end Catalog

end TypedDecl
