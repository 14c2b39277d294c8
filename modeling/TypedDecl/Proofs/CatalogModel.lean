import TypedDecl.Proofs.Describing

namespace TypedDecl

open Catalog (tableKeys columnsOf grouped unmapped? wrapperName description names)

namespace Catalog

/-- Two of the names that a catalog declares meet, or a column takes the name that its table
reserves. -/
inductive Clash (options : CatalogOptions) (cs : List Column) : Prop
  | tables (k k' : TableKey) (hk : k ∈ tableKeys cs) (hk' : k' ∈ tableKeys cs) (other : k ≠ k')
      (same : Table.declaredName options.withSchema k = Table.declaredName options.withSchema k')
  | tableRegistry (k : TableKey) (hk : k ∈ tableKeys cs)
      (same : Table.declaredName options.withSchema k = options.registry)
  | columnRegistry (c : Column) (hc : c ∈ cs)
      (same : wrapperName options.withSchema c = options.registry)
  | columnTable (c : Column) (k : TableKey) (hc : c ∈ cs) (hk : k ∈ tableKeys cs)
      (same : wrapperName options.withSchema c = Table.declaredName options.withSchema k)
  | columns (i j : Nat) (c c' : Column) (other : i < j) (hc : cs[i]? = some c)
      (hc' : cs[j]? = some c')
      (same : wrapperName options.withSchema c = wrapperName options.withSchema c')
  | handle (c : Column) (hc : c ∈ cs) (same : Name.sanitize c.name = handleName)

theorem Clash.not_distinct {options : CatalogOptions} {cs : List Column}
    (clash : Clash options cs) : ¬Declaration.Distinct (description options cs) := by
  rw [distinct_description]
  rintro ⟨nodup, handles⟩
  obtain ⟨registry, nodup⟩ := List.nodup_cons.mp nodup
  obtain ⟨tables, columns, apart⟩ := List.nodup_append.mp nodup
  cases clash with
  | tables k k' hk hk' other same => exact other (List.inj_on_of_nodup_map tables hk hk' same)
  | tableRegistry k hk same =>
    exact registry (List.mem_append_left _ (List.mem_map.mpr ⟨k, hk, same⟩))
  | columnRegistry c hc same =>
    exact registry (List.mem_append_right _ (List.mem_map.mpr ⟨c, hc, same⟩))
  | columnTable c k hc hk same =>
    exact apart _ (List.mem_map_of_mem hk) _ (List.mem_map_of_mem hc) same.symm
  | columns i j c c' other hc hc' same =>
    have inside : j < (cs.map (wrapperName options.withSchema)).length := by
      rw [List.length_map]
      exact (List.getElem?_eq_some_iff.mp hc').1
    apply List.nodup_iff_getElem?_ne_getElem?.mp columns i j other inside
    rw [List.getElem?_map, List.getElem?_map, hc, hc', Option.map_some, Option.map_some, same]
  | handle c hc same => exact handles c hc same

theorem distinct_of_not_clash {options : CatalogOptions} {cs : List Column}
    (h : ¬Clash options cs) : Declaration.Distinct (description options cs) := by
  have registry : options.registry ∉ (tableKeys cs).map (Table.declaredName options.withSchema) ++
      cs.map (wrapperName options.withSchema) := by
    intro member
    rcases List.mem_append.mp member with table | column
    · obtain ⟨k, hk, same⟩ := List.mem_map.mp table
      exact h (.tableRegistry k hk same)
    · obtain ⟨c, hc, same⟩ := List.mem_map.mp column
      exact h (.columnRegistry c hc same)
  have tables : ((tableKeys cs).map (Table.declaredName options.withSchema)).Nodup := by
    apply (nodup_tableKeys cs).map_on
    intro k hk k' hk' same
    by_contra other
    exact h (.tables k k' hk hk' other same)
  have columns : (cs.map (wrapperName options.withSchema)).Nodup := by
    rw [List.nodup_iff_getElem?_ne_getElem?]
    intro i j other inside same
    rw [List.length_map] at inside
    rw [List.getElem?_map, List.getElem?_map, List.getElem?_eq_getElem inside,
      List.getElem?_eq_getElem (Nat.lt_trans other inside)] at same
    exact h (.columns i j _ _ other (List.getElem?_eq_getElem _) (List.getElem?_eq_getElem inside)
      (Option.some.inj same))
  have apart : ∀ a ∈ (tableKeys cs).map (Table.declaredName options.withSchema),
      ∀ b ∈ cs.map (wrapperName options.withSchema), a ≠ b := by
    intro a ha b hb same
    obtain ⟨k, hk, rfl⟩ := List.mem_map.mp ha
    obtain ⟨c, hc, rfl⟩ := List.mem_map.mp hb
    exact h (.columnTable c k hc hk same.symm)
  have handles : ∀ c ∈ cs, Name.sanitize c.name ≠ handleName := by
    intro c hc same
    exact h (.handle c hc same)
  have others := List.nodup_append.mpr ⟨tables, columns, apart⟩
  exact distinct_description.mpr ⟨List.nodup_cons.mpr ⟨registry, others⟩, handles⟩

theorem clash_iff_not_distinct {options : CatalogOptions} {cs : List Column} :
    Clash options cs ↔ ¬Declaration.Distinct (description options cs) := by
  constructor
  · exact Clash.not_distinct
  · intro h
    by_contra none
    exact h (distinct_of_not_clash none)

theorem unmapped?_grouped_eq_none {types : TypeMap} {cs : List Column} :
    unmapped? types (grouped cs) = none ↔ ∀ c ∈ cs, ¬types.Lacks c.native := by
  rw [unmapped?, List.find?_eq_none]
  simp only [(grouped_perm cs).mem_iff, decide_eq_true_eq]

end Catalog

namespace CatalogModel

open Catalog (Clash clash_iff_not_distinct unmapped?_grouped_eq_none)

/-- The outcome for a catalog. The column of the error is the first one without a type, going
through the tables in the order of their first columns. -/
theorem ofColumns_outcome (options : CatalogOptions) (cs : List Column) :
    (∀ c, ofColumns options cs = .error (.unsupportedType c) ↔
      (grouped cs).find? (fun c => options.types.Lacks c.native) = some c) ∧
    ((∃ c, ofColumns options cs = .error (.unsupportedType c)) ↔
      ∃ c ∈ cs, options.types.Lacks c.native) ∧
    ((∃ name scope, ofColumns options cs = .error (.collision name scope)) ↔
      (∀ c ∈ cs, ¬options.types.Lacks c.native) ∧ Clash options cs) ∧
    ((∃ m, ofColumns options cs = .ok m) ↔
      (∀ c ∈ cs, ¬options.types.Lacks c.native) ∧ ¬Clash options cs) := by
  have all : unmapped? options.types (grouped cs) = none ↔
      ∀ c ∈ cs, ¬options.types.Lacks c.native := unmapped?_grouped_eq_none
  rw [ofColumns_eq, ← all, clash_iff_not_distinct]
  -- From here on only two things count: the first column without a type, and whether names meet.
  change (∀ c, _ ↔ unmapped? options.types (grouped cs) = some c) ∧ _
  cases first : unmapped? options.types (grouped cs) with
  | some c =>
    have found : ∃ c ∈ cs, options.types.Lacks c.native := by
      by_contra none
      rw [all.mpr fun c hc lacks => none ⟨c, hc, lacks⟩] at first
      cases first
    simp [found]
  | none =>
    have mapped : ¬∃ c ∈ cs, options.types.Lacks c.native := fun ⟨c, hc, lacks⟩ =>
      all.mp first c hc lacks
    by_cases distinct : Declaration.Distinct (description options cs)
    · rw [Declaration.checkDistinct_eq_ok.mpr distinct]
      simp [mapped, distinct, Except.map]
    · obtain ⟨name, scope, failed⟩ := Declaration.checkDistinct_error distinct
      rw [failed]
      simp [mapped, distinct, Except.map]

/-- The first column by table is not the first one in the catalog. -/
example : ofColumns ⟨true, "Tables", .insert .empty "int" "i32"⟩ [⟨"dbo", "Posts", "Id", "int"⟩,
    ⟨"dbo", "Users", "Site", "geometry"⟩, ⟨"dbo", "Posts", "Tree", "hierarchyid"⟩] =
      .error (.unsupportedType ⟨"dbo", "Posts", "Tree", "hierarchyid"⟩) := by
  rfl

/-- The one declaration that a name has. -/
def Names (m : CatalogModel) (name : String) (d : Declaration) : Prop :=
  m.declarations.filter (·.name = name) = [d]

/-- The member of a table for a column. -/
structure HoldsColumn (m : CatalogModel) (types : TypeMap) (c : Column) (held : Member) : Prop where
  name : held.name = Name.sanitize c.name
  value : held.value = Text.Quoted.quote c.name
  type : ∃ d target, m.Names held.type d ∧ d.kind = .field target ∧
    types.get? c.native = some target

/-- The member of the registry for a table. -/
structure HoldsTable (m : CatalogModel) (options : CatalogOptions) (cs : List Column)
    (k : TableKey) (held : Member) : Prop where
  name : held.name = Table.declaredName options.withSchema k
  type : held.type = Table.declaredName options.withSchema k
  declared : ∃ d, m.Names held.type d ∧ d.kind = .table k.schema k.table ∧
    List.Forall₂ (m.HoldsColumn options.types) (columnsOf cs k) d.members

/-- The declarations refer to each other and to nothing else, and each as it should. -/
structure Exact (m : CatalogModel) (options : CatalogOptions) (cs : List Column) : Prop where
  tables : m.tables = (tableKeys cs).map (Table.ofKey options.withSchema cs)
  names : (m.declarations.map Declaration.name).Nodup
  registry : ∃ registry, m.declarations.head? = some registry ∧ registry.kind = .registry ∧
    registry.name = options.registry ∧
    List.Forall₂ (m.HoldsTable options cs) (tableKeys cs) registry.members ∧
    ∀ d ∈ m.declarations, d.kind.isTable → (registry.members.map Member.type).count d.name = 1
  columns : ∀ d ∈ m.declarations, ∀ target, d.kind = .field target →
    (((m.declarations.filter (·.kind.isTable)).flatMap Declaration.members).map
      Member.type).count d.name = 1
  length : m.declarations.length = 1 + m.tables.length + cs.length

/-- A declaration whose name no other one has is the one that its name has. -/
theorem names_of_mem {m : CatalogModel} (nodup : (m.declarations.map Declaration.name).Nodup)
    {d : Declaration} (hd : d ∈ m.declarations) : m.Names d.name d := by
  have same : m.declarations.filter (·.name = d.name) = m.declarations.filter (· = d) := by
    apply List.filter_congr
    intro x hx
    have inj : x.name = d.name ↔ x = d :=
      ⟨fun h => List.inj_on_of_nodup_map nodup hx hd h, fun h => by rw [h]⟩
    simp [inj]
  rw [Names, same, List.filter_eq, List.count_eq_one_of_mem (nodup.of_map _) hd]
  rfl

section Exact

variable {options : CatalogOptions} {cs : List Column} {m : CatalogModel}

/-- What a model is made of, if there is one. -/
theorem ofColumns_ok (h : ofColumns options cs = .ok m) :
    m.tables = (tableKeys cs).map (Table.ofKey options.withSchema cs) ∧
      m.declarations = description options cs ∧
      Declaration.Distinct (description options cs) ∧
      ∀ c ∈ cs, ¬options.types.Lacks c.native := by
  rw [ofColumns_eq] at h
  cases first : unmapped? options.types (grouped cs) with
  | some c =>
    rw [first] at h
    cases h
  | none =>
    have mapped := unmapped?_grouped_eq_none.mp first
    rw [first] at h
    cases checked : Declaration.checkDistinct (description options cs) with
    | error e =>
      rw [checked] at h
      cases h
    | ok u =>
      rw [checked] at h
      cases h
      have distinct := Declaration.checkDistinct_eq_ok.mp checked
      exact ⟨Table.ofColumns_eq options.withSchema cs, rfl, distinct, mapped⟩

theorem exists_ofColumns_iff :
    (∃ m, ofColumns options cs = .ok m) ↔
      (∀ c ∈ cs, ¬options.types.Lacks c.native) ∧
        Declaration.Distinct (description options cs) := by
  constructor
  · rintro ⟨m, h⟩
    obtain ⟨_, _, distinct, mapped⟩ := ofColumns_ok h
    exact ⟨mapped, distinct⟩
  · rintro ⟨mapped, distinct⟩
    rw [ofColumns_eq, unmapped?_grouped_eq_none.mpr mapped,
      Declaration.checkDistinct_eq_ok.mpr distinct]
    exact ⟨_, rfl⟩

theorem nodup_names (h : ofColumns options cs = .ok m) :
    (m.declarations.map Declaration.name).Nodup := by
  obtain ⟨_, declared, distinct, _⟩ := ofColumns_ok h
  rw [declared]
  exact distinct.1

/-- In a model each member of a table is as its column has it. -/
theorem holdsColumn (h : ofColumns options cs = .ok m) {k : TableKey} (hk : k ∈ tableKeys cs)
    {c : Column} (hc : c ∈ columnsOf cs k) :
    m.HoldsColumn options.types c ((Table.ofKey options.withSchema cs k).member c) := by
  obtain ⟨_, declared, _, mapped⟩ := ofColumns_ok h
  have target := TypeMap.get?_target (mapped c (Catalog.mem_columnsOf.mp hc).1)
  have here := Catalog.wrapper_mem options hk hc
  rw [← declared] at here
  exact ⟨rfl, rfl, _, _, names_of_mem (nodup_names h) here, rfl, target⟩

/-- And each member of the registry as its table has it. -/
theorem holdsTable (h : ofColumns options cs = .ok m) {k : TableKey} (hk : k ∈ tableKeys cs) :
    m.HoldsTable options cs k (Table.ofKey options.withSchema cs k).entry := by
  obtain ⟨_, declared, _, _⟩ := ofColumns_ok h
  have here := Catalog.declaration_mem options hk
  rw [← declared] at here
  refine ⟨rfl, rfl, _, names_of_mem (nodup_names h) here, rfl, ?_⟩
  rw [Table.declaration, Table.ofKey, List.forall₂_map_right_iff, List.forall₂_same]
  intro c hc
  exact holdsColumn h hk hc

theorem members_registry (options : CatalogOptions) (cs : List Column) :
    (Table.registry options.registry (Table.ofColumns options.withSchema cs)).members =
      (tableKeys cs).map fun k => (Table.ofKey options.withSchema cs k).entry := by
  rw [Table.registry, Table.ofColumns_eq, List.map_map]
  rfl

/-- What the members of all tables refer to. -/
theorem types_members (options : CatalogOptions) (cs : List Column) :
    (((description options cs).filter (·.kind.isTable)).flatMap Declaration.members).map
      Member.type = (grouped cs).map (wrapperName options.withSchema) := by
  have one (k : TableKey) : (Table.ofKey options.withSchema cs k).declaration.members.map
      Member.type = (columnsOf cs k).map (wrapperName options.withSchema) := by
    rw [Table.declaration, List.map_map]
    exact List.map_congr_left fun c hc => Table.fieldName_ofKey hc
  rw [Catalog.filter_isTable_description, List.flatMap_map, List.map_flatMap, grouped,
    List.map_flatMap]
  simp only [one]

/-- The declarations that a catalog becomes are closed: every name that a member refers to is
declared once, by what the member is for, and every declaration but the registry is referred to by
one member. -/
theorem exact_of_ofColumns (h : ofColumns options cs = .ok m) : m.Exact options cs := by
  obtain ⟨tables, declared, distinct, _⟩ := ofColumns_ok h
  obtain ⟨nodup, _⟩ := Catalog.distinct_description.mp distinct
  obtain ⟨_, nodup⟩ := List.nodup_cons.mp nodup
  obtain ⟨tableNames, columnNames, _⟩ := List.nodup_append.mp nodup
  have length := (Catalog.names_description options cs).length_eq
  have first : m.declarations.head? =
      some (Table.registry options.registry (Table.ofColumns options.withSchema cs)) := by
    rw [declared]
    rfl
  refine ⟨tables, nodup_names h, ⟨_, first, rfl, rfl, ?_, ?_⟩, ?_, ?_⟩
  · rw [members_registry, List.forall₂_map_right_iff, List.forall₂_same]
    intro k hk
    exact holdsTable h hk
  · intro d hd kind
    rw [declared] at hd
    rw [members_registry, List.map_map]
    apply List.count_eq_one_of_mem tableNames
    rcases Catalog.mem_description.mp hd with rfl | ⟨k, hk, rfl⟩ | ⟨k, hk, c, hc, rfl⟩
    · cases kind
    · exact List.mem_map.mpr ⟨k, hk, rfl⟩
    · cases kind
  · intro d hd target kind
    rw [declared] at hd
    have perm := (Catalog.grouped_perm cs).map (wrapperName options.withSchema)
    rw [declared, types_members, perm.count_eq]
    apply List.count_eq_one_of_mem columnNames
    rcases Catalog.mem_description.mp hd with rfl | ⟨k, hk, rfl⟩ | ⟨k, hk, c, hc, rfl⟩
    · cases kind
    · cases kind
    · have name : (Table.ofKey options.withSchema cs k).fieldName c =
          wrapperName options.withSchema c := Table.fieldName_ofKey hc
      exact List.mem_map.mpr ⟨c, (Catalog.mem_columnsOf.mp hc).1, name.symm⟩
  · rw [List.length_map, names, List.length_cons, List.length_append, List.length_map,
      List.length_map] at length
    rw [declared, tables, List.length_map, length]
    omega

end Exact

theorem exact_of_interleaved : ∃ m,
    ofColumns ⟨true, "Tables", .insert .empty "int" "i32"⟩ [⟨"dbo", "Posts", "Id", "int"⟩,
        ⟨"dbo", "Users", "Id", "INT"⟩, ⟨"dbo", "Posts", "post score", "int"⟩] = .ok m ∧
      m.Exact ⟨true, "Tables", .insert .empty "int" "i32"⟩ [⟨"dbo", "Posts", "Id", "int"⟩,
        ⟨"dbo", "Users", "Id", "INT"⟩, ⟨"dbo", "Posts", "post score", "int"⟩] :=
  ⟨_, rfl, exact_of_ofColumns rfl⟩

end CatalogModel

end TypedDecl
