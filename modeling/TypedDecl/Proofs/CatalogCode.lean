import TypedDecl.Proofs.CatalogModel
import TypedDecl.Proofs.DeclarationCode
import TypedDecl.Proofs.Emission
import TypedDecl.Proofs.Spelling

namespace TypedDecl

open Catalog (tableKeys columnsOf wrapperName description)
open Code (Ident Token Path Structure Outline.structs)
open Code.Token (word operator group Closed)
open Code.Item
open Declaration

namespace Declaration

theorem ne_struct_of_ident {name : String} {i : Ident} (h : ident name = .ok i) :
    i ≠ Ident.plain "struct" :=
  Ident.ne_keyword (isName_of_ident h) (by decide)

theorem closed_typeTokens {type : String} {ts : List Token} (h : typeTokens type = .ok ts) :
    Closed ts := by
  unfold typeTokens at h
  split at h
  next ty _ =>
    cases h
    exact ty.closed_tokens
  next =>
    split at h
    next i _ =>
      cases h
      simp
    next => cases h

/-- All three texts of an entry name the table. -/
theorem spell_entry {t : Table} (word : Name.Word t.declared.toList) {s : Spelled}
    (h : spell t.entry = .ok s) :
    s = ⟨s.ident, [.ident s.ident], callTokens (pathTokens [.ident s.ident] ["new"]) []⟩ := by
  obtain ⟨named, typed, valued⟩ := spell_ok h
  have type : [Token.ident s.ident] = s.type :=
    Except.ok.inj ((typeTokens_word word named).symm.trans typed)
  have value : callTokens (pathTokens [.ident s.ident] ["new"]) [] = s.value :=
    Except.ok.inj ((valueTokens_constructor word named).symm.trans valued)
  rw [value, type]

/-- The type of a member names the declaration of its column, and the value is the column's name. -/
theorem spell_member {t : Table} (word : Name.Word t.declared.toList) {c : Column} {s : Spelled}
    (h : spell (t.member c) = .ok s) {w : Ident} (hw : ident (t.fieldName c) = .ok w) :
    s = ⟨s.ident, [.ident w], [.literal (Text.Quoted.quote c.name)]⟩ := by
  obtain ⟨_, typed, valued⟩ := spell_ok h
  have field : Name.Word (t.fieldName c).toList := word.join_sanitize c.name
  have type : [Token.ident w] = s.type :=
    Except.ok.inj ((typeTokens_word field hw).symm.trans typed)
  have value : [Token.literal (Text.Quoted.quote c.name)] = s.value :=
    Except.ok.inj ((valueTokens_quote c.name).symm.trans valued)
  rw [value, type]

end Declaration

theorem Catalog.word_wrapperName (withSchema : Bool) (c : Column) :
    Name.Word (wrapperName withSchema c).toList := by
  rw [wrapperName]
  exact (Table.word_declaredName withSchema c.key).join_sanitize c.name

/-- The code for a column: its field in the table, the literal that the field is made with, and the
structure that the field holds. -/
structure ColumnCode where
  field : Ident
  literal : String
  struct : Structure

/-- The code for a table: its structure and its columns. -/
structure TableCode where
  struct : Structure
  columns : List ColumnCode

namespace ColumnCode

/-- The code is that of a column: the name of the field and the name in the literal are the column's
own, and the structure is declared around the runtime's field of the column's type. -/
structure Carries (runtime : Path) (options : CatalogOptions) (c : Column) (code : ColumnCode) :
    Prop where
  field : ident (Name.sanitize c.name) = .ok code.field
  literal : Text.Quoted.decode code.literal = some c.name
  name : ident (wrapperName options.withSchema c) = .ok code.struct.name
  shape : ∃ target value, options.types.get? c.native = some target ∧
    typeTokens target = .ok value ∧
    code.struct.shape = .tuple (publicTokens (fieldType runtime value))

/-- The column as a member whose texts are code. -/
def spelled (code : ColumnCode) : Spelled :=
  ⟨code.field, [.ident code.struct.name], [.literal code.literal]⟩

open Code.Outline

/-- A column that is spelled as a member of its table and declared has its code. -/
theorem carries_of_spell {runtime : Path} {options : CatalogOptions} {cs : List Column}
    {k : TableKey} {c : Column} (hc : c ∈ columnsOf cs k)
    (mapped : ¬options.types.Lacks c.native) {s : Spelled}
    (spelled : spell ((Table.ofKey options.withSchema cs k).member c) = .ok s) {row : List Token}
    (emitted : tokens runtime ((Table.ofKey options.withSchema cs k).wrapper options.types c) =
      .ok row) (rest : List Token) :
    ∃ code : ColumnCode, structs (row ++ rest) = code.struct :: structs rest ∧
      code.Carries runtime options c ∧ s = code.spelled := by
  obtain ⟨field, _, _⟩ := spell_ok spelled
  obtain ⟨w, hw, emitted⟩ := bind_ok emitted
  obtain ⟨target, ht, emitted⟩ := bind_ok emitted
  cases emitted
  obtain ⟨items, outline⟩ :=
    structs_fieldTokens runtime (ne_struct_of_ident hw) (closed_typeTokens ht) rest
  have name : (Table.ofKey options.withSchema cs k).fieldName c =
      wrapperName options.withSchema c := Table.fieldName_ofKey hc
  have wrapper : ident (wrapperName options.withSchema c) = .ok w := name ▸ hw
  -- One text is read in two ways: as what the declaration is named by, and as the member's type.
  have word : Name.Word (Table.ofKey options.withSchema cs k).declared.toList :=
    Table.word_declaredName options.withSchema k
  have made := spell_member word spelled hw
  refine ⟨⟨s.ident, Text.Quoted.quote c.name, _⟩, outline, ?_, made⟩
  exact ⟨field, Text.Quoted.decode_quote c.name, wrapper, _, target,
    TypeMap.get?_target mapped, ht, rfl⟩

/-- So have the columns of a table, one after the other. -/
theorem carries_of_spells {runtime : Path} {options : CatalogOptions} {cs columns : List Column}
    {k : TableKey} (all : ∀ c ∈ columns, c ∈ columnsOf cs k)
    (mapped : ∀ c ∈ columns, ¬options.types.Lacks c.native) {members : List Spelled}
    (spelled : List.Forall₂ (fun c s =>
      spell ((Table.ofKey options.withSchema cs k).member c) = .ok s) columns members)
    {ts : List Token}
    (emitted : Emits runtime
      (columns.map ((Table.ofKey options.withSchema cs k).wrapper options.types)) ts)
    (rest : List Token) :
    ∃ codes : List ColumnCode, structs (ts ++ rest) = codes.map struct ++ structs rest ∧
      List.Forall₂ (Carries runtime options) columns codes ∧
      members = codes.map ColumnCode.spelled := by
  induction spelled generalizing ts with
  | nil =>
    cases emitted
    exact ⟨[], rfl, .nil, rfl⟩
  | cons first _ ih =>
    cases emitted with
    | cons row others =>
      obtain ⟨here, all⟩ := List.forall_mem_cons.mp all
      obtain ⟨typed, mapped⟩ := List.forall_mem_cons.mp mapped
      obtain ⟨codes, outline, carried, rfl⟩ := ih all mapped others
      obtain ⟨code, first', carries, rfl⟩ := carries_of_spell here typed first row _
      refine ⟨code :: codes, ?_, .cons carries carried, rfl⟩
      rw [List.append_assoc, first', outline]
      rfl

/-- The names of the structures of columns are those of their declarations, marks aside. -/
theorem names_structs {runtime : Path} {options : CatalogOptions} {columns : List Column}
    {codes : List ColumnCode} (carried : List.Forall₂ (Carries runtime options) columns codes) :
    (codes.map struct).map (fun s => s.name.name) =
      columns.map (wrapperName options.withSchema) := by
  induction carried with
  | nil => rfl
  | @cons c code _ _ first _ ih =>
    have word := Catalog.word_wrapperName options.withSchema c
    rw [List.map_cons, List.map_cons, List.map_cons, ih, ident_word_name word first.name]

end ColumnCode

namespace TableCode

/-- The structures of a table: its own and those of its columns. -/
def structs (t : TableCode) : List Structure := t.struct :: t.columns.map ColumnCode.struct

/-- What the registry says of a table: a function that makes one. -/
def entry (t : TableCode) : List Token :=
  publicTokens (functionTokens t.struct.name [] [.ident t.struct.name]
    (callTokens (pathTokens [.ident t.struct.name] ["new"]) []))

/-- The fields of a table: the runtime's table and one for each column. -/
def fields (runtime : Path) (t : TableCode) : List Token :=
  commaTokens (typedTokens [word handleName] (runtimeTokens runtime ["Table"]) ::
    t.columns.map fun c => publicTokens (typedTokens [.ident c.field] [.ident c.struct.name]))

/-- The body of `with_alias`: the runtime's table, and with it each field. -/
def aliased (runtime : Path) (t : TableCode) : List Token :=
  letTokens "table" (callTokens (runtimeTokens runtime ["Table", "new"])
      (argTokens [selfPath ["SCHEMA"], selfPath ["NAME"], [word "alias"]])) ++
    selfType ++ group .brace
      (commaTokens (t.columns.map (fun c =>
        typedTokens [.ident c.field] (callTokens (pathTokens [.ident c.struct.name] ["new"])
          (argTokens [borrowTokens [word "table"], [.literal c.literal]]))) ++
        [typedTokens [word handleName] [word "table"]]))

open Code.Outline in
/-- The code is that of a table with its columns in their order. -/
structure Carries (runtime : Path) (options : CatalogOptions) (cs : List Column) (k : TableKey)
    (code : TableCode) : Prop where
  name : ident (Table.declaredName options.withSchema k) = .ok code.struct.name
  schema : ∃ literal, constant? "SCHEMA" code.struct.items = some [.literal literal] ∧
    Text.Quoted.decode literal = some k.schema
  table : ∃ literal, constant? "NAME" code.struct.items = some [.literal literal] ∧
    Text.Quoted.decode literal = some k.table
  shape : code.struct.shape = .record (code.fields runtime)
  distinct : (code.columns.map ColumnCode.field).Nodup
  aliased : function? "with_alias" code.struct.items = some (code.aliased runtime)
  columns : List.Forall₂ (ColumnCode.Carries runtime options) (columnsOf cs k) code.columns

open Code.Outline

/-- Different names of columns are different identifiers of fields. -/
theorem nodup_fields {runtime : Path} {options : CatalogOptions} {columns : List Column}
    {codes : List ColumnCode}
    (carried : List.Forall₂ (ColumnCode.Carries runtime options) columns codes)
    (different : (columns.map fun c => Name.sanitize c.name).Nodup) :
    (codes.map ColumnCode.field).Nodup := by
  have names : columns.map (fun c => Name.sanitize c.name) =
      (codes.map ColumnCode.field).map Ident.name := by
    induction carried with
    | nil => rfl
    | cons first _ ih =>
      have here := ident_word_name (Name.word_sanitize _) first.field
      rw [List.map_cons, List.map_cons, List.map_cons, here, ih (List.nodup_cons.mp different).2]
  rw [names] at different
  exact different.of_map _

/-- A table that is declared with its columns has its code. -/
theorem carries_of_described {runtime : Path} {options : CatalogOptions} {cs : List Column}
    {k : TableKey} (mapped : ∀ c ∈ cs, ¬options.types.Lacks c.native)
    (different : ((columnsOf cs k).map fun c => Name.sanitize c.name).Nodup) {ts : List Token}
    (emitted : Emits runtime ((Table.ofKey options.withSchema cs k).described options.types) ts)
    (rest : List Token) :
    ∃ code : TableCode, Outline.structs (ts ++ rest) = code.structs ++ Outline.structs rest ∧
      code.Carries runtime options cs k := by
  cases emitted with
  | cons first others =>
    obtain ⟨i, hi, first⟩ := bind_ok first
    obtain ⟨members, spelled, first⟩ := bind_ok first
    cases first
    have spells : List.Forall₂ (fun c s =>
        spell ((Table.ofKey options.withSchema cs k).member c) = .ok s) (columnsOf cs k) members :=
      List.forall₂_map_left_iff.mp (mapM_ok spelled)
    obtain ⟨codes, outline, carried, rfl⟩ := ColumnCode.carries_of_spells (fun _ hc => hc)
      (fun c hc => mapped c (Catalog.mem_columnsOf.mp hc).1) spells others rest
    have closed : ∀ m ∈ codes.map ColumnCode.spelled, Closed m.type ∧ Closed m.value := by
      intro m hm
      obtain ⟨code, _, rfl⟩ := List.mem_map.mp hm
      exact ⟨rfl, rfl⟩
    have table := structs_tableTokens runtime (ne_struct_of_ident hi) k.schema k.table closed
    have fields : tableFields runtime (codes.map ColumnCode.spelled) =
        TableCode.fields runtime ⟨⟨i, .unit, []⟩, codes⟩ := by
      rw [tableFields, List.map_map]
      rfl
    have body : aliasBody runtime (codes.map ColumnCode.spelled) =
        TableCode.aliased runtime ⟨⟨i, .unit, []⟩, codes⟩ := by
      rw [aliasBody, List.map_map]
      rfl
    have bound := function?_withAlias runtime k.schema k.table closed
    refine ⟨⟨⟨i, .record (tableFields runtime (codes.map ColumnCode.spelled)),
      tableItems runtime k.schema k.table (codes.map ColumnCode.spelled)⟩, codes⟩,
      ?_, hi, ?_, ?_, ?_, nodup_fields carried different, ?_, carried⟩
    · rw [List.append_assoc]
      exact (table _).trans (congrArg _ outline)
    · exact ⟨_, constant?_schema runtime k.schema k.table _,
        Text.Quoted.decode_quoteGuarded k.schema⟩
    · exact ⟨_, constant?_name runtime k.schema k.table _,
        Text.Quoted.decode_quoteGuarded k.table⟩
    · exact congrArg _ fields
    · exact bound.trans (congrArg _ body)

/-- So have all tables, one after the other. -/
theorem carries_of_tables {runtime : Path} {options : CatalogOptions} {cs : List Column}
    (mapped : ∀ c ∈ cs, ¬options.types.Lacks c.native)
    (different : ∀ k, ((columnsOf cs k).map fun c => Name.sanitize c.name).Nodup)
    {ks : List TableKey} {ts : List Token}
    (emitted : Emits runtime (ks.flatMap fun k =>
      (Table.ofKey options.withSchema cs k).described options.types) ts) :
    ∃ codes : List TableCode, Outline.structs ts = codes.flatMap TableCode.structs ∧
      List.Forall₂ (Carries runtime options cs) ks codes := by
  induction ks generalizing ts with
  | nil =>
    cases emitted
    exact ⟨[], rfl, .nil⟩
  | cons k ks ih =>
    obtain ⟨x, y, rfl, first, others⟩ := emitted.append
    obtain ⟨codes, outline, carried⟩ := ih others
    obtain ⟨code, here, carries⟩ := carries_of_described mapped (different k) first y
    refine ⟨code :: codes, ?_, .cons carries carried⟩
    rw [here, outline, List.flatMap_cons]

/-- The names of the structures of tables are those of their declarations, marks aside. -/
theorem names_structs {runtime : Path} {options : CatalogOptions} {cs : List Column}
    {ks : List TableKey} {codes : List TableCode}
    (carried : List.Forall₂ (Carries runtime options cs) ks codes) :
    (codes.flatMap TableCode.structs).map (fun s => s.name.name) = ks.flatMap fun k =>
      Table.declaredName options.withSchema k ::
        (columnsOf cs k).map (wrapperName options.withSchema) := by
  induction carried with
  | nil => rfl
  | @cons k code ks codes first _ ih =>
    have table := ident_word_name (Table.word_declaredName options.withSchema k) first.name
    rw [List.flatMap_cons, List.map_append, ih, TableCode.structs, List.map_cons, table,
      ColumnCode.names_structs first.columns, List.flatMap_cons]

/-- The table as a member of the registry whose texts are code. -/
def spelled (code : TableCode) : Spelled :=
  ⟨code.struct.name, [.ident code.struct.name],
    callTokens (pathTokens [.ident code.struct.name] ["new"]) []⟩

/-- The registry names a table as the table names itself. -/
theorem spelled_of_spell {runtime : Path} {options : CatalogOptions} {cs : List Column}
    {k : TableKey} {code : TableCode} (carries : code.Carries runtime options cs k) {s : Spelled}
    (h : spell (Table.ofKey options.withSchema cs k).entry = .ok s) : s = code.spelled := by
  have named : s.ident = code.struct.name := Except.ok.inj ((spell_ok h).1.symm.trans carries.name)
  have word : Name.Word (Table.ofKey options.withSchema cs k).declared.toList :=
    Table.word_declaredName options.withSchema k
  rw [TableCode.spelled, ← named]
  exact spell_entry word h

theorem spelled_of_spells {runtime : Path} {options : CatalogOptions} {cs : List Column}
    {ks : List TableKey} {codes : List TableCode}
    (carried : List.Forall₂ (Carries runtime options cs) ks codes) {members : List Spelled}
    (h : List.Forall₂ (fun k s => spell (Table.ofKey options.withSchema cs k).entry = .ok s)
      ks members) : members = codes.map TableCode.spelled := by
  induction carried generalizing members with
  | nil =>
    cases h
    rfl
  | cons first _ ih =>
    cases h with
    | cons here others => rw [List.map_cons, spelled_of_spell first here, ih others]

/-- The registry has one function for each table. -/
theorem structs_registry {runtime : Path} {options : CatalogOptions} {cs : List Column}
    {codes : List TableCode}
    (carried : List.Forall₂ (Carries runtime options cs) (tableKeys cs) codes) {row : List Token}
    (h : tokens runtime (Table.registry options.registry
      (Table.ofColumns options.withSchema cs)) = .ok row) (rest : List Token) :
    ∃ i, ident options.registry = .ok i ∧ Outline.structs (row ++ rest) =
      ⟨i, .unit, codes.flatMap entry⟩ :: Outline.structs rest := by
  obtain ⟨i, hi, h⟩ := bind_ok h
  obtain ⟨members, spelled, h⟩ := bind_ok h
  cases h
  rw [CatalogModel.members_registry] at spelled
  obtain rfl := spelled_of_spells carried (List.forall₂_map_left_iff.mp (mapM_ok spelled))
  have closed : ∀ m ∈ codes.map TableCode.spelled, Closed m.type ∧ Closed m.value := by
    intro m hm
    obtain ⟨code, _, rfl⟩ := List.mem_map.mp hm
    exact ⟨rfl, rfl⟩
  refine ⟨i, hi, ?_⟩
  rw [structs_registryTokens (ne_struct_of_ident hi) closed, List.flatMap_map]
  rfl

end TableCode

namespace CatalogModel

open Code.Outline

/-- Code declares the registry and then each table with its columns, and no other structure; and it
says of each what the catalog says. -/
def CarriedBy (options : CatalogOptions) (cs : List Column) (runtime : String) (ts : List Token) :
    Prop :=
  ∃ path registry tables, runtimePath runtime = .ok path ∧
    structs ts = registry :: tables.flatMap TableCode.structs ∧
    ident options.registry = .ok registry.name ∧ registry.shape = .unit ∧
    registry.items = tables.flatMap TableCode.entry ∧
    List.Forall₂ (TableCode.Carries path options cs) (tableKeys cs) tables

variable {options : CatalogOptions} {cs : List Column} {m : CatalogModel} {runtime : String}
  {ts : List Token}

/-- The code of a model, declaration by declaration. -/
theorem codes_of_listTokens (h : ofColumns options cs = .ok m)
    (ht : listTokens runtime m.declarations = .ok ts) :
    ∃ path i tables, runtimePath runtime = .ok path ∧ ident options.registry = .ok i ∧
      structs ts = ⟨i, .unit, tables.flatMap TableCode.entry⟩ ::
        tables.flatMap TableCode.structs ∧
      List.Forall₂ (TableCode.Carries path options cs) (tableKeys cs) tables := by
  obtain ⟨_, declared, distinct, mapped⟩ := ofColumns_ok h
  rw [declared, description, Table.ofColumns_eq, List.flatMap_map, ← Table.ofColumns_eq] at ht
  obtain ⟨path, hp, emitted⟩ := emits_of_listTokens ht
  cases emitted with
  | cons first others =>
    -- The row of the registry comes first, but what it must say is known from the tables' rows.
    have columnNames := (Catalog.distinct_description.mp distinct).1.of_cons.of_append_right
    obtain ⟨tables, outline, carried⟩ :=
      TableCode.carries_of_tables mapped (Catalog.nodup_members columnNames) others
    obtain ⟨i, hi, registry⟩ := TableCode.structs_registry carried first _
    exact ⟨path, i, tables, hp, hi, registry.trans (congrArg _ outline), carried⟩

theorem carriedBy_of_listTokens (h : ofColumns options cs = .ok m)
    (ht : listTokens runtime m.declarations = .ok ts) : CarriedBy options cs runtime ts := by
  obtain ⟨path, i, tables, hp, hi, outline, carried⟩ := codes_of_listTokens h ht
  exact ⟨path, _, tables, hp, outline, hi, rfl, rfl, carried⟩

theorem carriedBy_of_keywords : ∃ m ts,
    ofColumns ⟨false, "Catalog", .insert .empty "int" "i32"⟩
        [⟨"dbo", "type", "fn", "int"⟩, ⟨"dbo", "type", "a\"b", "INT"⟩] = .ok m ∧
      listTokens "runtime" m.declarations = .ok ts ∧
      CarriedBy ⟨false, "Catalog", .insert .empty "int" "i32"⟩
        [⟨"dbo", "type", "fn", "int"⟩, ⟨"dbo", "type", "a\"b", "INT"⟩] "runtime" ts := by
  have described : ofColumns ⟨false, "Catalog", .insert .empty "int" "i32"⟩
      [⟨"dbo", "type", "fn", "int"⟩, ⟨"dbo", "type", "a\"b", "INT"⟩] =
        .ok ⟨_, description ⟨false, "Catalog", .insert .empty "int" "i32"⟩
          [⟨"dbo", "type", "fn", "int"⟩, ⟨"dbo", "type", "a\"b", "INT"⟩]⟩ := rfl
  have made : (listTokens "runtime" (description ⟨false, "Catalog", .insert .empty "int" "i32"⟩
      [⟨"dbo", "type", "fn", "int"⟩, ⟨"dbo", "type", "a\"b", "INT"⟩])).toBool = true := by
    decide +kernel
  obtain ⟨ts, hts⟩ := exists_ok made
  exact ⟨_, ts, described, hts, carriedBy_of_listTokens described hts⟩

/-- The names of the structures in the code, the registry's first. Marks do not count. -/
theorem names_structs_of_listTokens (h : ofColumns options cs = .ok m)
    (ht : listTokens runtime m.declarations = .ok ts) {i : Ident}
    (hi : ident options.registry = .ok i) :
    ((structs ts).map fun s => s.name.name).Perm (i.name ::
      ((tableKeys cs).map (Table.declaredName options.withSchema) ++
        cs.map (wrapperName options.withSchema))) := by
  obtain ⟨path, j, tables, _, hj, outline, carried⟩ := codes_of_listTokens h ht
  obtain rfl : j = i := Except.ok.inj (hj.symm.trans hi)
  rw [outline, List.map_cons, TableCode.names_structs carried]
  exact .cons _ (Catalog.names_tables_perm options.withSchema cs)

/-- The structures in the code have different names exactly if no table and no column has the name
that the registry's is read as. The check of the declarations compares the text of that name, which
may have blanks, comments or a raw mark around it. -/
theorem nodup_structs_iff (h : ofColumns options cs = .ok m)
    (ht : listTokens runtime m.declarations = .ok ts) {i : Ident}
    (hi : ident options.registry = .ok i) :
    ((structs ts).map fun s => s.name.name).Nodup ↔
      i.name ∉ (tableKeys cs).map (Table.declaredName options.withSchema) ++
        cs.map (wrapperName options.withSchema) := by
  obtain ⟨_, _, distinct, _⟩ := ofColumns_ok h
  have others := (Catalog.distinct_description.mp distinct).1.of_cons
  rw [(names_structs_of_listTokens h ht hi).nodup_iff, List.nodup_cons]
  exact and_iff_left others

theorem nodup_structs_of_plain_registry : ∃ m ts,
    ofColumns ⟨true, "Catalog", .insert .empty "int" "i32"⟩ [⟨"dbo", "Posts", "Id", "int"⟩] = .ok m ∧
      listTokens "runtime" m.declarations = .ok ts ∧
      ((structs ts).map fun s => s.name.name).Nodup := by
  have described : ofColumns ⟨true, "Catalog", .insert .empty "int" "i32"⟩
      [⟨"dbo", "Posts", "Id", "int"⟩] =
        .ok ⟨_, description ⟨true, "Catalog", .insert .empty "int" "i32"⟩
          [⟨"dbo", "Posts", "Id", "int"⟩]⟩ := rfl
  have made : (listTokens "runtime" (description ⟨true, "Catalog", .insert .empty "int" "i32"⟩
      [⟨"dbo", "Posts", "Id", "int"⟩])).toBool = true := by
    decide +kernel
  have plain : ident "Catalog" = .ok ⟨false, "Catalog"⟩ := rfl
  obtain ⟨ts, hts⟩ := exists_ok made
  exact ⟨_, ts, described, hts, (nodup_structs_iff described hts plain).mpr (by decide +kernel)⟩

/-- A name with a blank before it is read as the name behind the blank. -/
theorem structs_of_blank_registry : ∃ m ts,
    ofColumns ⟨true, " dbo_Posts", .standard⟩ [⟨"dbo", "Posts", "Id", "int"⟩] = .ok m ∧
      listTokens "runtime" m.declarations = .ok ts ∧
      ¬((structs ts).map fun s => s.name.name).Nodup := by
  have described : ofColumns ⟨true, " dbo_Posts", .standard⟩ [⟨"dbo", "Posts", "Id", "int"⟩] =
      .ok ⟨_, description ⟨true, " dbo_Posts", .standard⟩ [⟨"dbo", "Posts", "Id", "int"⟩]⟩ := rfl
  have made : (listTokens "runtime" (description ⟨true, " dbo_Posts", .standard⟩
      [⟨"dbo", "Posts", "Id", "int"⟩])).toBool = true := by
    decide +kernel
  have blank : ident " dbo_Posts" = .ok ⟨false, "dbo_Posts"⟩ := rfl
  obtain ⟨ts, hts⟩ := exists_ok made
  have names := names_structs_of_listTokens described hts blank
  refine ⟨_, ts, described, hts, ?_⟩
  intro nodup
  have twice := names.nodup_iff.mp nodup
  exact absurd twice (by decide +kernel)

end CatalogModel

end TypedDecl
