import TypedDecl.Proofs.CatalogNaming
import TypedDecl.Proofs.PathHeads

namespace TypedDecl

open Catalog (tableKeys columnsOf wrapperName)
open Code (Ident Path Segment Structure Token)
open Code.Item
open Code.Outline (structs)
open Declaration (ident listTokens runtimePath typeHeads)

namespace Catalog

/-- The types of the language that the code of a table takes. -/
def preludeTypes : List String := ["Option", "String", "Into", "Default"]

/-- The values that the code of tables and columns takes from the language or binds itself. -/
def templateValues : List String := ["Some", "None", "table", "alias", "column"]

/-- What the path of the runtime begins with. -/
def runtimeHead (runtime : Path) : List String := (runtime.segments.take 1).map (·.name.name)

/-- The types, modules and crates outside of the output that are looked up by the code of a column
and its table. -/
def lookedUp (runtime : Path) (types : TypeMap) (c : Column) : List String :=
  runtimeHead runtime ++ typeHeads (types.target c)

end Catalog

open Catalog (preludeTypes templateValues lookedUp)

/-- A structure hides nothing that the code of columns takes from outside. A unit is a value too. -/
def Code.Structure.HidesNothing (runtime : Path) (types : TypeMap) (cs : List Column)
    (s : Structure) : Prop :=
  ∀ c ∈ cs, s.name.name ∉ preludeTypes ++ lookedUp runtime types c ∧
    (s.shape = .unit → s.name.name ∉ templateValues)

/-- No structure in the code hides what the code takes from outside. -/
def CatalogModel.CaptureFree (runtime : Path) (types : TypeMap) (cs : List Column)
    (ts : List Token) : Prop :=
  ∀ s ∈ structs ts, s.HidesNothing runtime types cs

namespace Catalog

/-- Nothing that the templates take from the language has an underscore. -/
theorem not_mem_of_underscore {n : String} (underscore : '_' ∈ n.toList) :
    n ∉ preludeTypes ∧ n ∉ templateValues := by
  have types : ∀ w ∈ preludeTypes, '_' ∉ w.toList := by decide
  have values : ∀ w ∈ templateValues, '_' ∉ w.toList := by decide
  exact ⟨fun mem => types n mem underscore, fun mem => values n mem underscore⟩

theorem exists_column {withSchema : Bool} {cs : List Column} {n : String}
    (h : n ∈ (tableKeys cs).map (Table.declaredName withSchema) ++
      cs.map (wrapperName withSchema)) : ∃ c, c ∈ cs := by
  rcases List.mem_append.mp h with table | column
  · obtain ⟨k, hk, -⟩ := List.mem_map.mp table
    obtain ⟨c, hc, -⟩ := mem_tableKeys.mp hk
    exact ⟨c, hc⟩
  · obtain ⟨c, hc, -⟩ := List.mem_map.mp column
    exact ⟨c, hc⟩

/-- Only a table without its schema can be named like a type of the templates. -/
theorem not_prelude_iff (withSchema : Bool) (cs : List Column) :
    (∀ n ∈ (tableKeys cs).map (Table.declaredName withSchema) ++ cs.map (wrapperName withSchema),
        n ∉ preludeTypes) ↔
      (withSchema = false → ∀ k ∈ tableKeys cs, Name.sanitize k.table ∉ preludeTypes) := by
  rw [List.forall_mem_append, List.forall_mem_map, List.forall_mem_map]
  have wrappers : ∀ c ∈ cs, wrapperName withSchema c ∉ preludeTypes :=
    fun c _ => (not_mem_of_underscore (underscore_wrapperName withSchema c)).1
  rw [and_iff_left wrappers]
  cases withSchema with
  | true =>
    have tables : ∀ k ∈ tableKeys cs, Table.declaredName true k ∉ preludeTypes :=
      fun k _ => (not_mem_of_underscore (underscore_declaredName k)).1
    exact iff_of_true tables nofun
  | false => exact ⟨fun tables _ => tables, fun tables => tables rfl⟩

end Catalog

theorem Code.Structure.hidesNothing_iff {s : Structure} (shape : s.shape ≠ .unit)
    {runtime : Path} {types : TypeMap} {cs : List Column} :
    s.HidesNothing runtime types cs ↔
      ∀ c ∈ cs, s.name.name ∉ preludeTypes ++ lookedUp runtime types c := by
  simp [HidesNothing, shape]

namespace TableCode

variable {runtime : Path} {options : CatalogOptions} {cs : List Column} {codes : List TableCode}

/-- Tables are records, and columns are structures around a value. -/
theorem shape_ne_unit {ks : List TableKey}
    (carried : List.Forall₂ (Carries runtime options cs) ks codes) :
    ∀ s ∈ codes.flatMap TableCode.structs, s.shape ≠ .unit := by
  intro s mem
  obtain ⟨code, here, mem⟩ := List.mem_flatMap.mp mem
  obtain ⟨k, -, carries⟩ := Declaration.exists_of_forall₂ carried here
  rcases List.mem_cons.mp mem with rfl | mem
  · rw [carries.shape]
    exact nofun
  · obtain ⟨column, here, rfl⟩ := List.mem_map.mp mem
    obtain ⟨c, -, column⟩ := Declaration.exists_of_forall₂ carries.columns here
    obtain ⟨target, value, -, -, shape⟩ := column.shape
    rw [shape]
    exact nofun

theorem forall_structs_iff (carried : List.Forall₂ (Carries runtime options cs) (tableKeys cs) codes)
    (p : String → Prop) :
    (∀ s ∈ codes.flatMap TableCode.structs, p s.name.name) ↔
      ∀ n ∈ (tableKeys cs).map (Table.declaredName options.withSchema) ++
        cs.map (wrapperName options.withSchema), p n := by
  have names := Catalog.names_tables_perm options.withSchema cs
  rw [← TableCode.names_structs carried] at names
  rw [← List.forall_mem_map]
  exact forall_congr' fun n => imp_congr_left names.mem_iff

end TableCode

namespace Declaration

variable {runtime : Path} {i : Ident} {value : List Token}

theorem Emits.exists_row {ds : List Declaration} {ts : List Token} (h : Emits runtime ds ts)
    {d : Declaration} (hd : d ∈ ds) :
    ∃ row, tokens runtime d = .ok row ∧ ∀ t ∈ row, t ∈ ts := by
  induction h with
  | nil => cases hd
  | @cons d' ds row ts first _ ih =>
    rcases List.mem_cons.mp hd with rfl | further
    · exact ⟨row, first, fun t ht => List.mem_append_left _ ht⟩
    · obtain ⟨row', made, inside⟩ := ih further
      exact ⟨row', made, fun t ht => List.mem_append_right _ (inside t ht)⟩

theorem word_mem_tableTokens {n : String} (h : n ∈ preludeTypes) {schema table : String}
    {members : List Spelled} : Token.word n ∈ tableTokens runtime i schema table members := by
  simp only [preludeTypes, List.mem_cons, List.not_mem_nil, or_false] at h
  rcases h with rfl | rfl | rfl | rfl <;>
    simp [tableTokens, tableItems, withAlias, tableMethods, publicTokens, implTokens, traitTokens,
      functionTokens, typedTokens, argTokens, Token.group]

theorem mem_fieldTokens {t : Token} (h : t ∈ fieldType runtime value) :
    t ∈ fieldTokens runtime i value := by
  simp [fieldTokens, publicTokens, tupleTokens, Token.group, h]

theorem value_mem_fieldTokens {t : Token} (h : t ∈ value) : t ∈ fieldTokens runtime i value := by
  apply mem_fieldTokens
  simp [fieldType, h]

theorem runtime_mem_fieldTokens {segment : Segment} (h : segment ∈ runtime.segments.take 1) :
    Token.ident segment.name ∈ fieldTokens runtime i value := by
  have head : segment.name ∈ runtime.heads := by
    obtain ⟨global, segments⟩ := runtime
    rw [Path.heads, ← List.map_take]
    exact List.mem_append_left _ (List.mem_map_of_mem h)
  have inside : Token.ident segment.name ∈ runtime.tokens := runtime.within_heads _ head
  apply mem_fieldTokens
  simp [fieldType, runtimeTokens, pathTokens, inside]

end Declaration

namespace CatalogModel

variable {options : CatalogOptions} {cs : List Column} {m : CatalogModel} {runtime : String}
  {path : Path} {ts : List Token}

/-- Every type that a structure can hide stands in the code. -/
theorem exists_of_lookedUp (h : ofColumns options cs = .ok m)
    (ht : listTokens runtime m.declarations = .ok ts) (hp : runtimePath runtime = .ok path)
    {c : Column} (hc : c ∈ cs) {n : String}
    (mem : n ∈ preludeTypes ++ lookedUp path options.types c) :
    ∃ i : Ident, i.name = n ∧ Token.ident i ∈ ts := by
  obtain ⟨path', hp', emitted⟩ := Declaration.emits_of_listTokens ht
  obtain rfl : path' = path := Except.ok.inj (hp'.symm.trans hp)
  rw [(ofColumns_ok h).2.1] at emitted
  have hk : c.key ∈ tableKeys cs := Catalog.mem_tableKeys.mpr ⟨c, hc, rfl⟩
  have here : c ∈ columnsOf cs c.key := Catalog.mem_columnsOf.mpr ⟨hc, rfl⟩
  obtain ⟨table, tableMade, tableIn⟩ := emitted.exists_row (Catalog.declaration_mem options hk)
  obtain ⟨field, fieldMade, fieldIn⟩ := emitted.exists_row (Catalog.wrapper_mem options hk here)
  obtain ⟨i, -, fieldMade⟩ := Declaration.bind_ok fieldMade
  obtain ⟨value, typed, fieldMade⟩ := Declaration.bind_ok fieldMade
  cases fieldMade
  rcases List.mem_append.mp mem with prelude | other
  · obtain ⟨j, -, tableMade⟩ := Declaration.bind_ok tableMade
    obtain ⟨members, -, tableMade⟩ := Declaration.bind_ok tableMade
    cases tableMade
    exact ⟨_, rfl, tableIn _ (Declaration.word_mem_tableTokens prelude)⟩
  · rcases List.mem_append.mp other with runtime | type
    · obtain ⟨segment, first, rfl⟩ := List.mem_map.mp runtime
      exact ⟨_, rfl, fieldIn _ (Declaration.runtime_mem_fieldTokens first)⟩
    · obtain ⟨head, name, inside⟩ := Declaration.exists_of_mem_typeHeads typed type
      exact ⟨head, name, fieldIn _ (Declaration.value_mem_fieldTokens inside)⟩

/-- The code of a catalog hides nothing that it takes from outside exactly if the registry has none
of these names, no table without its schema is named like a type of the templates, and no table or
column is declared under the first name of the runtime or of a path in a column's type. All of the
types stand in the code. -/
theorem captureFree_iff (h : ofColumns options cs = .ok m)
    (ht : listTokens runtime m.declarations = .ok ts) (hp : runtimePath runtime = .ok path)
    {i : Ident} (hi : ident options.registry = .ok i) :
    (CaptureFree path options.types cs ts ↔
      (∀ c ∈ cs, i.name ∉ preludeTypes ++ templateValues ++ lookedUp path options.types c) ∧
      (options.withSchema = false → ∀ k ∈ tableKeys cs, Name.sanitize k.table ∉ preludeTypes) ∧
      ∀ n ∈ (tableKeys cs).map (Table.declaredName options.withSchema) ++
        cs.map (wrapperName options.withSchema), ∀ c ∈ cs, n ∉ lookedUp path options.types c) ∧
    ∀ c ∈ cs, ∀ n ∈ preludeTypes ++ lookedUp path options.types c,
      ∃ i : Ident, i.name = n ∧ Token.ident i ∈ ts := by
  refine ⟨?_, fun c hc n => exists_of_lookedUp h ht hp hc⟩
  obtain ⟨path', i', tables, hp', hi', outline, carried⟩ := codes_of_listTokens h ht
  obtain rfl : path' = path := Except.ok.inj (hp'.symm.trans hp)
  obtain rfl : i' = i := Except.ok.inj (hi'.symm.trans hi)
  have registry : Structure.HidesNothing path' options.types cs
      ⟨i', .unit, tables.flatMap TableCode.entry⟩ ↔
        ∀ c ∈ cs, i'.name ∉ preludeTypes ++ templateValues ++ lookedUp path' options.types c := by
    refine forall₂_congr fun c _ => ?_
    simp only [List.mem_append, not_or, forall_true_left]
    tauto
  have others : (∀ s ∈ tables.flatMap TableCode.structs, s.HidesNothing path' options.types cs) ↔
      ∀ n ∈ (tableKeys cs).map (Table.declaredName options.withSchema) ++
        cs.map (wrapperName options.withSchema),
          ∀ c ∈ cs, n ∉ preludeTypes ++ lookedUp path' options.types c := by
    rw [← TableCode.forall_structs_iff carried]
    exact forall₂_congr fun s mem =>
      Structure.hidesNothing_iff (TableCode.shape_ne_unit carried s mem)
  rw [CaptureFree, outline, List.forall_mem_cons, registry, others,
    ← Catalog.not_prelude_iff, ← forall₂_and]
  refine and_congr_right' (forall₂_congr fun n mem => ?_)
  obtain ⟨c, hc⟩ := Catalog.exists_column mem
  simp only [List.mem_append, not_or, forall₂_and]
  exact and_congr_left' ⟨fun other => other c hc, fun other _ _ => other⟩

/-- A catalog whose names all have schemas, in which types of all kinds are used. -/
theorem captureFree_of_plain_names : ∃ m ts path,
    ofColumns ⟨true, "Catalog", .standard⟩
        [⟨"dbo", "Option", "Some", "int"⟩, ⟨"dbo", "Option", "at", "datetime"⟩] = .ok m ∧
      listTokens "sql_query_runtime" m.declarations = .ok ts ∧
      runtimePath "sql_query_runtime" = .ok path ∧
      CaptureFree path .standard
        [⟨"dbo", "Option", "Some", "int"⟩, ⟨"dbo", "Option", "at", "datetime"⟩] ts := by
  have described : ofColumns ⟨true, "Catalog", .standard⟩
      [⟨"dbo", "Option", "Some", "int"⟩, ⟨"dbo", "Option", "at", "datetime"⟩] =
        .ok ⟨_, Catalog.description ⟨true, "Catalog", .standard⟩
          [⟨"dbo", "Option", "Some", "int"⟩, ⟨"dbo", "Option", "at", "datetime"⟩]⟩ := rfl
  have made : (listTokens "sql_query_runtime" (Catalog.description ⟨true, "Catalog", .standard⟩
      [⟨"dbo", "Option", "Some", "int"⟩, ⟨"dbo", "Option", "at", "datetime"⟩])).toBool = true := by
    decide +kernel
  have named : ident "Catalog" = .ok ⟨false, "Catalog"⟩ := rfl
  have runtime : runtimePath "sql_query_runtime" =
      .ok (.mk false [.mk ⟨false, "sql_query_runtime"⟩ .none]) := rfl
  obtain ⟨ts, hts⟩ := Declaration.exists_ok made
  refine ⟨_, ts, _, described, hts, runtime, ?_⟩
  exact (captureFree_iff described hts runtime named).1.mpr (by decide +kernel)

/-- A table without its schema is taken for the type by which the code of tables tells whether there
is an alias. -/
theorem captured_option : ∃ m ts path,
    ofColumns ⟨false, "SQL", .standard⟩ [⟨"dbo", "Option", "Id", "int"⟩] = .ok m ∧
      listTokens "sql_query_runtime" m.declarations = .ok ts ∧
      runtimePath "sql_query_runtime" = .ok path ∧
      ¬CaptureFree path .standard [⟨"dbo", "Option", "Id", "int"⟩] ts := by
  have described : ofColumns ⟨false, "SQL", .standard⟩ [⟨"dbo", "Option", "Id", "int"⟩] =
      .ok ⟨_, Catalog.description ⟨false, "SQL", .standard⟩ [⟨"dbo", "Option", "Id", "int"⟩]⟩ := rfl
  have made : (listTokens "sql_query_runtime" (Catalog.description ⟨false, "SQL", .standard⟩
      [⟨"dbo", "Option", "Id", "int"⟩])).toBool = true := by
    decide +kernel
  have named : ident "SQL" = .ok ⟨false, "SQL"⟩ := rfl
  obtain ⟨ts, hts⟩ := Declaration.exists_ok made
  obtain ⟨path, -, -, runtime, -⟩ := codes_of_listTokens described hts
  have names := names_structs_of_listTokens described hts named
  have declared : "Option" ∈ (structs ts).map fun s => s.name.name :=
    names.mem_iff.mpr (by decide +kernel)
  obtain ⟨s, mem, name⟩ := List.mem_map.mp declared
  refine ⟨_, ts, path, described, hts, runtime, fun free => ?_⟩
  have hidden := (free s mem _ (List.mem_singleton.mpr rfl)).1
  rw [name] at hidden
  exact hidden (List.mem_append_left _ (by decide))

end CatalogModel

end TypedDecl
