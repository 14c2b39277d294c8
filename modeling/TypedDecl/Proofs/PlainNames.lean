import TypedDecl.Proofs.CatalogModel
import TypedDecl.Proofs.SanitizedNames

namespace TypedDecl

namespace Name

/-- `A` to `Z` and `a` to `z`. -/
def Letter (c : Char) : Prop :=
  ('A' ≤ c ∧ c ≤ 'Z') ∨ ('a' ≤ c ∧ c ≤ 'z')

/-- A letter, and behind it letters and `0` to `9`. -/
def Plain (s : String) : Prop :=
  ∃ c cs, s.toList = c :: cs ∧ Letter c ∧ ∀ d ∈ cs, Letter d ∨ ('0' ≤ d ∧ d ≤ '9')

instance : DecidablePred Letter := fun c =>
  inferInstanceAs (Decidable (('A' ≤ c ∧ c ≤ 'Z') ∨ ('a' ≤ c ∧ c ≤ 'z')))

instance : DecidablePred Plain := fun s =>
  match chars : s.toList with
  | [] => .isFalse (by simp [Plain, chars])
  | c :: cs =>
    decidable_of_iff (Letter c ∧ cs.all (fun d => Letter d ∨ ('0' ≤ d ∧ d ≤ '9')) = true)
      (by simp [Plain, chars])

theorem Letter.begins {c : Char} (h : Letter c) : Begins c := by
  rcases h with upper | lower
  · exact .inl upper
  · exact .inr (.inl lower)

theorem Letter.ne_underscore {c : Char} (h : Letter c) : c ≠ '_' := by
  rintro rfl
  revert h
  unfold Letter
  decide

namespace Plain

variable {s : String}

theorem sanitize_eq (h : Plain s) : sanitize s = s := by
  obtain ⟨c, cs, chars, first, others⟩ := h
  rw [sanitize_eq_self_iff, word_iff]
  refine ⟨c, cs, chars, first.begins, ?_⟩
  intro d hd
  exact (others d hd).imp_left Letter.begins

theorem not_mem_underscore (h : Plain s) : '_' ∉ s.toList := by
  obtain ⟨c, cs, chars, first, others⟩ := h
  rw [chars, List.mem_cons, not_or]
  refine ⟨first.ne_underscore.symm, ?_⟩
  intro inside
  rcases others '_' inside with letter | digit
  · exact letter.ne_underscore rfl
  · exact absurd digit (by decide)

theorem word (h : Plain s) : Word s.toList := (sanitize_eq_self_iff s).mp h.sanitize_eq

end Plain

/-- Names without underscores can be told from what they make up. -/
theorem injOn_intercalate :
    Set.InjOn "_".intercalate {names | names ≠ [] ∧ ∀ n ∈ names, '_' ∉ n.toList} := by
  have split {names : List String} (some : names ≠ []) (free : ∀ n ∈ names, '_' ∉ n.toList) :
      ("_".intercalate names).toList.splitOn '_' = names.map String.toList := by
    rw [String.toList_intercalate]
    apply List.splitOn_intercalate '_'
    · rw [List.forall_mem_map]
      exact free
    · simpa using some
  rintro a ⟨some, free⟩ b ⟨some', free'⟩ same
  have parts := split some free
  rw [same, split some' free'] at parts
  exact (List.map_injective_iff.mpr fun _ _ => String.toList_injective) parts.symm

end Name

namespace Catalog

open Name (Plain)

/-- The name of the registry and all names in the catalog have letters and digits only. -/
structure PlainNames (options : CatalogOptions) (cs : List Column) : Prop where
  registry : Plain options.registry
  columns : ∀ c ∈ cs, Plain c.schema ∧ Plain c.table ∧ Plain c.name

/-- The names that the name of a table's declaration is made of. -/
def tableParts (withSchema : Bool) (k : TableKey) : List String :=
  if withSchema then [k.schema, k.table] else [k.table]

/-- The names that the name of a column's declaration is made of. -/
def columnParts (withSchema : Bool) (c : Column) : List String :=
  tableParts withSchema c.key ++ [c.name]

/-- The names that all names in the declarations of a catalog are made of. -/
def parts (options : CatalogOptions) (cs : List Column) : List (List String) :=
  [options.registry] :: ((tableKeys cs).map (tableParts options.withSchema) ++
    cs.map (columnParts options.withSchema))

theorem tableParts_ne_nil (withSchema : Bool) (k : TableKey) : tableParts withSchema k ≠ [] := by
  cases withSchema <;> simp [tableParts]

theorem length_tableParts (withSchema : Bool) (k : TableKey) :
    (tableParts withSchema k).length = if withSchema then 2 else 1 := by
  cases withSchema <;> rfl

theorem length_columnParts (withSchema : Bool) (c : Column) :
    (columnParts withSchema c).length = (if withSchema then 2 else 1) + 1 := by
  rw [columnParts, List.length_append, length_tableParts, List.length_singleton]

theorem declaredName_plain {k : TableKey} (schema : Plain k.schema) (table : Plain k.table)
    (withSchema : Bool) :
    Table.declaredName withSchema k = "_".intercalate (tableParts withSchema k) := by
  cases withSchema with
  | false =>
    rw [Table.declaredName, if_neg Bool.false_ne_true, table.sanitize_eq, tableParts,
      if_neg Bool.false_ne_true, String.intercalate_singleton]
  | true =>
    have word := schema.word.join_sanitize k.table
    rw [table.sanitize_eq] at word
    rw [Table.declaredName, if_pos rfl, (Name.sanitize_eq_self_iff _).mpr word, tableParts,
      if_pos rfl, String.intercalate_cons_cons, String.intercalate_singleton]

section Plain

variable {options : CatalogOptions} {cs : List Column} (plain : PlainNames options cs)
include plain

theorem PlainNames.key {k : TableKey} (hk : k ∈ tableKeys cs) : Plain k.schema ∧ Plain k.table := by
  obtain ⟨c, hc, rfl⟩ := mem_tableKeys.mp hk
  exact ⟨(plain.columns c hc).1, (plain.columns c hc).2.1⟩

theorem PlainNames.names_eq : names options cs = (parts options cs).map "_".intercalate := by
  have tables : ∀ k ∈ tableKeys cs, Table.declaredName options.withSchema k =
      "_".intercalate (tableParts options.withSchema k) := by
    intro k hk
    obtain ⟨schema, table⟩ := plain.key hk
    exact declaredName_plain schema table options.withSchema
  have columns : ∀ c ∈ cs, wrapperName options.withSchema c =
      "_".intercalate (columnParts options.withSchema c) := by
    intro c hc
    have key : c.key ∈ tableKeys cs := mem_tableKeys.mpr ⟨c, hc, rfl⟩
    rw [wrapperName, tables c.key key, (plain.columns c hc).2.2.sanitize_eq, columnParts,
      String.intercalate_append_of_ne_nil (tableParts_ne_nil options.withSchema c.key)
        (List.cons_ne_nil _ _), String.intercalate_singleton]
  rw [names, List.map_congr_left tables, List.map_congr_left columns, parts, List.map_cons,
    String.intercalate_singleton, List.map_append, List.map_map, List.map_map]
  rfl

theorem PlainNames.not_mem_underscore {p : List String} (hp : p ∈ parts options cs) :
    p ≠ [] ∧ ∀ n ∈ p, '_' ∉ n.toList := by
  have table {k : TableKey} (hk : k ∈ tableKeys cs) :
      ∀ n ∈ tableParts options.withSchema k, '_' ∉ n.toList := by
    obtain ⟨schema, table⟩ := plain.key hk
    intro n hn
    rw [tableParts] at hn
    split_ifs at hn
    · rcases List.mem_pair.mp hn with rfl | rfl
      · exact schema.not_mem_underscore
      · exact table.not_mem_underscore
    · rw [List.mem_singleton.mp hn]
      exact table.not_mem_underscore
  rcases List.mem_cons.mp hp with rfl | hp
  · refine ⟨List.cons_ne_nil _ _, ?_⟩
    intro n hn
    rw [List.mem_singleton.mp hn]
    exact plain.registry.not_mem_underscore
  · rcases List.mem_append.mp hp with hp | hp
    · obtain ⟨k, hk, rfl⟩ := List.mem_map.mp hp
      exact ⟨tableParts_ne_nil _ _, table hk⟩
    · obtain ⟨c, hc, rfl⟩ := List.mem_map.mp hp
      refine ⟨List.append_ne_nil_of_right_ne_nil _ (List.cons_ne_nil _ _), ?_⟩
      intro n hn
      rcases List.mem_append.mp hn with hn | hn
      · exact table (mem_tableKeys.mpr ⟨c, hc, rfl⟩) n hn
      · rw [List.mem_singleton.mp hn]
        exact (plain.columns c hc).2.2.not_mem_underscore

theorem PlainNames.nodup_names_iff : (names options cs).Nodup ↔ (parts options cs).Nodup := by
  rw [plain.names_eq]
  constructor
  · exact List.Nodup.of_map "_".intercalate
  · intro nodup
    apply nodup.map_on
    intro p hp p' hp' same
    exact Name.injOn_intercalate (plain.not_mem_underscore hp) (plain.not_mem_underscore hp') same

/-- No column takes the name that its table reserves. -/
theorem PlainNames.ne_handleName {c : Column} (hc : c ∈ cs) :
    Name.sanitize c.name ≠ handleName := by
  have name := (plain.columns c hc).2.2
  rw [name.sanitize_eq]
  intro same
  have free := name.not_mem_underscore
  rw [same] at free
  exact free (by decide)

end Plain

/-- A column is told by its table and its own name, and names of different number are different; so
only the tables and the registry can meet. -/
theorem nodup_parts_iff {options : CatalogOptions} {cs : List Column}
    (distinct : (cs.map fun c => (c.schema, c.table, c.name)).Nodup) :
    (parts options cs).Nodup ↔
      (∀ k ∈ tableKeys cs, tableParts options.withSchema k ≠ [options.registry]) ∧
        ∀ k ∈ tableKeys cs, ∀ k' ∈ tableKeys cs,
          tableParts options.withSchema k = tableParts options.withSchema k' → k = k' := by
  have key {c : Column} (hc : c ∈ cs) : c.key ∈ tableKeys cs := mem_tableKeys.mpr ⟨c, hc, rfl⟩
  rw [parts, List.nodup_cons, List.nodup_append, List.mem_append, not_or]
  constructor
  · rintro ⟨⟨registry, _⟩, tables, _, _⟩
    refine ⟨?_, fun k hk k' hk' same => List.inj_on_of_nodup_map tables hk hk' same⟩
    intro k hk same
    exact registry (List.mem_map.mpr ⟨k, hk, same⟩)
  · rintro ⟨registry, apartTables⟩
    have tables {k k' : TableKey} (hk : k ∈ tableKeys cs) (hk' : k' ∈ tableKeys cs) :=
      apartTables k hk k' hk'
    have column (c : Column) : [options.registry] ≠ columnParts options.withSchema c := by
      intro same
      have length := congrArg List.length same
      rw [length_columnParts, List.length_singleton] at length
      split_ifs at length <;> omega
    have apart (k : TableKey) (c : Column) :
        tableParts options.withSchema k ≠ columnParts options.withSchema c := by
      intro same
      have length := congrArg List.length same
      rw [length_columnParts, length_tableParts] at length
      omega
    have columns : (cs.map (columnParts options.withSchema)).Nodup := by
      rw [List.Nodup, List.pairwise_map] at distinct ⊢
      apply distinct.imp_of_mem
      intro c c' hc hc' other same
      obtain ⟨front, last⟩ := List.append_inj' same rfl
      have equal : c.key = c'.key := tables (key hc) (key hc') front
      have schema : c.schema = c'.schema := congrArg TableKey.schema equal
      have table : c.table = c'.table := congrArg TableKey.table equal
      rw [schema, table, List.singleton_inj.mp last] at other
      exact other rfl
    refine ⟨⟨?_, ?_⟩, (nodup_tableKeys cs).map_on apartTables, columns, ?_⟩
    · intro mem
      obtain ⟨k, hk, same⟩ := List.mem_map.mp mem
      exact registry k hk same
    · intro mem
      obtain ⟨c, _, same⟩ := List.mem_map.mp mem
      exact column c same.symm
    · intro a ha b hb
      obtain ⟨k, _, rfl⟩ := List.mem_map.mp ha
      obtain ⟨c, _, rfl⟩ := List.mem_map.mp hb
      exact apart k c

end Catalog

namespace CatalogModel

open Name (Plain)
open Catalog (PlainNames tableKeys tableParts)

/-- Names of letters and digits do not meet with the schema in the names, and without it only where
tables of two schemas have one name or a table is named as the registry is. -/
theorem ofColumns_of_plain_names {options : CatalogOptions} {cs : List Column}
    (plain : PlainNames options cs)
    (distinct : (cs.map fun c => (c.schema, c.table, c.name)).Nodup)
    (mapped : ∀ c ∈ cs, ∃ type, options.types.get? c.native = some type) :
    (options.withSchema = true → ∃ m, ofColumns options cs = .ok m) ∧
    (options.withSchema = false →
      ((∃ m, ofColumns options cs = .ok m) ↔
        (∀ c ∈ cs, ∀ c' ∈ cs, (c.schema, c.table) ≠ (c'.schema, c'.table) → c.table ≠ c'.table) ∧
          ∀ c ∈ cs, c.table ≠ options.registry)) := by
  have found : ∀ c ∈ cs, ¬options.types.Lacks c.native := by
    intro c hc lacks
    obtain ⟨type, entry⟩ := mapped c hc
    rw [TypeMap.get?_eq_none_iff.mpr lacks] at entry
    cases entry
  have outcome : (∃ m, ofColumns options cs = .ok m) ↔ (Catalog.parts options cs).Nodup := by
    rw [exists_ofColumns_iff, Catalog.distinct_description, plain.nodup_names_iff]
    constructor
    · rintro ⟨_, nodup, _⟩
      exact nodup
    · intro nodup
      exact ⟨found, nodup, fun c hc => plain.ne_handleName hc⟩
  have key {c : Column} (hc : c ∈ cs) : c.key ∈ tableKeys cs :=
    Catalog.mem_tableKeys.mpr ⟨c, hc, rfl⟩
  rw [outcome, Catalog.nodup_parts_iff distinct]
  constructor
  · intro withSchema
    have pair (k : TableKey) : tableParts options.withSchema k = [k.schema, k.table] :=
      if_pos withSchema
    simp only [pair]
    constructor
    · intro k _
      simp
    · rintro ⟨schema, table⟩ _ ⟨schema', table'⟩ _ same
      simpa using same
  · intro withSchema
    have single (k : TableKey) : tableParts options.withSchema k = [k.table] :=
      if_neg (by simp [withSchema])
    simp only [single, ne_eq, List.cons.injEq, and_true]
    constructor
    · rintro ⟨registry, tables⟩
      refine ⟨?_, fun c hc => registry c.key (key hc)⟩
      intro c hc c' hc' other same
      have equal : c.key = c'.key := tables c.key (key hc) c'.key (key hc') same
      exact other (Prod.ext (congrArg TableKey.schema equal) same)
    · rintro ⟨tables, registry⟩
      constructor
      · intro k hk
        obtain ⟨c, hc, rfl⟩ := Catalog.mem_tableKeys.mp hk
        exact registry c hc
      · intro k hk k' hk' same
        obtain ⟨c, hc, rfl⟩ := Catalog.mem_tableKeys.mp hk
        obtain ⟨c', hc', rfl⟩ := Catalog.mem_tableKeys.mp hk'
        by_contra other
        apply tables c hc c' hc' _ same
        intro pair
        obtain ⟨schema, table⟩ := Prod.mk.inj pair
        exact other (by rw [Column.key, Column.key, schema, table])

/-- One table in two schemas. -/
theorem ofColumns_of_two_schemas : ∃ cs : List Column,
    cs = [⟨"dbo", "Users", "Id", "int"⟩, ⟨"audit", "Users", "Id", "int"⟩,
      ⟨"dbo", "Users", "Name", "NVARCHAR"⟩] ∧
    (∃ m, ofColumns ⟨true, "SQL", .standard⟩ cs = .ok m) ∧
    ¬∃ m, ofColumns ⟨false, "SQL", .standard⟩ cs = .ok m := by
  refine ⟨_, rfl, ?_⟩
  have columns : ∀ c ∈ [Column.mk "dbo" "Users" "Id" "int", ⟨"audit", "Users", "Id", "int"⟩,
      ⟨"dbo", "Users", "Name", "NVARCHAR"⟩],
      (Plain c.schema ∧ Plain c.table ∧ Plain c.name) ∧
        (TypeMap.standard.get? c.native).isSome = true := by
    decide +kernel
  have registry : Plain "SQL" := by decide +kernel
  have plain (withSchema : Bool) : PlainNames ⟨withSchema, "SQL", .standard⟩
      [⟨"dbo", "Users", "Id", "int"⟩, ⟨"audit", "Users", "Id", "int"⟩,
        ⟨"dbo", "Users", "Name", "NVARCHAR"⟩] := ⟨registry, fun c hc => (columns c hc).1⟩
  have mapped : ∀ c ∈ [Column.mk "dbo" "Users" "Id" "int", ⟨"audit", "Users", "Id", "int"⟩,
      ⟨"dbo", "Users", "Name", "NVARCHAR"⟩], ∃ type, TypeMap.standard.get? c.native = some type :=
    fun c hc => Option.isSome_iff_exists.mp (columns c hc).2
  have named := (ofColumns_of_plain_names (plain true) (by decide) mapped).1
  have unnamed := (ofColumns_of_plain_names (plain false) (by decide) mapped).2
  refine ⟨named rfl, ?_⟩
  rw [unnamed rfl]
  decide

end CatalogModel

end TypedDecl
