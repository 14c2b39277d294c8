import TypedDecl.Proofs.PlacedNames

namespace TypedDecl

open Catalog (tableKeys columnsOf wrapperName)
open Code (Ident keywords)
open Declaration (Stands identOf placedNames template)

namespace Code

/-- The strict and the reserved keywords of the edition of 2024 that can be raw identifiers. -/
def editionKeywords : List String :=
  ["abstract", "as", "async", "await", "become", "box", "break", "const", "continue", "do", "dyn",
   "else", "enum", "extern", "false", "final", "fn", "for", "gen", "if", "impl", "in", "let", "loop",
   "macro", "match", "mod", "move", "mut", "override", "priv", "pub", "ref", "return", "static",
   "struct", "trait", "true", "try", "type", "typeof", "unsafe", "unsized", "use", "virtual",
   "where", "while", "yield"]

/-- The identifier is one in the edition of 2024: it is raw where it is spelled like a keyword. -/
def Ident.Legal (i : Ident) : Prop := i.name ∈ editionKeywords → i.raw = true

instance : DecidablePred Ident.Legal := fun i =>
  inferInstanceAs (Decidable (i.name ∈ editionKeywords → i.raw = true))

/-- The keywords of the edition are keywords of all editions, but for one. -/
theorem mem_keywords_of_edition : ∀ w ∈ editionKeywords, w = "gen" ∨ w ∈ keywords := by decide

theorem Ident.legal_iff {i : Ident} (h : i.isName = true) : i.Legal ↔ i ≠ plain "gen" := by
  constructor
  · rintro legal rfl
    exact absurd (legal (by decide)) (by decide)
  · intro other keyword
    by_contra plain
    rw [Bool.not_eq_true] at plain
    rcases mem_keywords_of_edition i.name keyword with gen | reserved
    · exact other (by rw [Ident.plain, ← gen, ← plain])
    · rw [Ident.isName, plain, Bool.false_or, List.contains_iff_mem.mpr reserved] at h
      cases h

end Code

namespace Declaration

open Name (Word)

/-- A word stands as itself, whether it becomes raw or not. -/
theorem name_identOf {n : String} (h : Word n.toList) : (identOf n).name = n := by
  rw [identOf, Ident.ofName?_word h]
  split
  · split <;> rfl
  · rfl

theorem identOf_ne_gen {n : String} (h : Word n.toList) (other : n ≠ "gen") :
    identOf n ≠ Ident.plain "gen" := by
  intro same
  have name := congrArg Ident.name same
  rw [name_identOf h] at name
  exact other name

end Declaration

namespace Catalog

variable {options : CatalogOptions} {cs : List Column} {k : TableKey} {n : String}

theorem mem_placedNames_registry :
    n ∈ (Table.registry options.registry (Table.ofColumns options.withSchema cs)).placedNames ↔
      n = options.registry ∨ ∃ k ∈ tableKeys cs, n = Table.declaredName options.withSchema k := by
  rw [placedNames, CatalogModel.members_registry, List.mem_cons, List.flatMap_map, List.mem_flatMap]
  refine or_congr_right (exists_congr fun k => and_congr_right fun _ => ?_)
  change n ∈ [Table.declaredName options.withSchema k, Table.declaredName options.withSchema k] ↔ _
  simp

theorem mem_placedNames_table :
    n ∈ (Table.ofKey options.withSchema cs k).declaration.placedNames ↔
      n = Table.declaredName options.withSchema k ∨
      ∃ c ∈ columnsOf cs k, n = Name.sanitize c.name ∨ n = wrapperName options.withSchema c := by
  have members : (Table.ofKey options.withSchema cs k).declaration.members =
      (columnsOf cs k).map (Table.ofKey options.withSchema cs k).member := rfl
  rw [placedNames, members, List.mem_cons, List.flatMap_map, List.mem_flatMap]
  refine or_congr_right (exists_congr fun c => and_congr_right fun hc => ?_)
  rw [← Table.fieldName_ofKey hc]
  change n ∈ [Name.sanitize c.name, (Table.ofKey options.withSchema cs k).fieldName c] ↔ _
  simp

theorem mem_placedNames_wrapper {c : Column} (hc : c ∈ columnsOf cs k) :
    n ∈ ((Table.ofKey options.withSchema cs k).wrapper options.types c).placedNames ↔
      n = wrapperName options.withSchema c := by
  rw [← Table.fieldName_ofKey hc]
  exact List.mem_singleton

/-- The names in the code of a catalog: those of the registry and of the tables, and of each column
that of its field and that of its structure. -/
theorem mem_placedNames :
    n ∈ (description options cs).flatMap placedNames ↔
      n = options.registry ∨ (∃ k ∈ tableKeys cs, n = Table.declaredName options.withSchema k) ∨
      ∃ c ∈ cs, n = Name.sanitize c.name ∨ n = wrapperName options.withSchema c := by
  rw [List.mem_flatMap]
  constructor
  · rintro ⟨d, declared, mem⟩
    rcases mem_description.mp declared with rfl | ⟨k, hk, rfl⟩ | ⟨k, hk, c, hc, rfl⟩
    · rcases mem_placedNames_registry.mp mem with registry | table
      · exact .inl registry
      · exact .inr (.inl table)
    · rcases mem_placedNames_table.mp mem with table | ⟨c, hc, column⟩
      · exact .inr (.inl ⟨k, hk, table⟩)
      · exact .inr (.inr ⟨c, (mem_columnsOf.mp hc).1, column⟩)
    · exact .inr (.inr ⟨c, (mem_columnsOf.mp hc).1, .inr ((mem_placedNames_wrapper hc).mp mem)⟩)
  · rintro (registry | ⟨k, hk, table⟩ | ⟨c, hc, column⟩)
    · exact ⟨_, mem_description.mpr (.inl rfl), mem_placedNames_registry.mpr (.inl registry)⟩
    · exact ⟨_, declaration_mem options hk, mem_placedNames_table.mpr (.inl table)⟩
    · have hk : c.key ∈ tableKeys cs := mem_tableKeys.mpr ⟨c, hc, rfl⟩
      have here : c ∈ columnsOf cs c.key := mem_columnsOf.mpr ⟨hc, rfl⟩
      exact ⟨_, declaration_mem options hk, mem_placedNames_table.mpr (.inr ⟨c, here, column⟩)⟩

end Catalog

namespace Directory

theorem Visit.placedNames_declaration (v : Visit) :
    v.declaration.placedNames = v.declaredName :: v.constantNames := by
  rw [placedNames, v.members_declaration]
  refine congrArg (v.declaredName :: ·) ?_
  rw [List.flatMap_map, Visit.constantNames, List.map_eq_flatMap]
  rfl

/-- The names in the code of a directory: those of the structures and of the constants. -/
theorem mem_placedNames {root : Directory} {n : String} :
    n ∈ (root.visits.map Visit.declaration).flatMap placedNames ↔
      (∃ v ∈ root.visits, n = v.declaredName) ∨ n ∈ root.constantNames := by
  rw [List.flatMap_map, List.mem_flatMap, constantNames, List.mem_flatMap, ← exists_or]
  refine exists_congr fun v => ?_
  rw [v.placedNames_declaration, List.mem_cons, and_or_left]

/-- The name of a structure begins with the name of the root. -/
theorem Visit.declaredName_ne_gen (v : Visit) : v.declaredName ≠ "gen" := by
  intro same
  have begins : v.declaredName.toList.head? = some 'R' := by
    rw [Visit.declaredName, String.toList_append]
    rfl
  rw [same] at begins
  exact absurd begins (by decide)

end Directory

variable {ds : List Declaration} {names : List String} {ns text : String} {options : RenderOptions}

/-- Only the names that can be any word can be the keyword that is not known as one. -/
theorem Modelled.forall_ne_gen (h : Modelled ds names) :
    (∀ n ∈ ds.flatMap placedNames, identOf n ≠ Ident.plain "gen") ↔
      ∀ n ∈ names, identOf n ≠ Ident.plain "gen" := by
  cases h with
  | @catalog options cs m h =>
    rw [(CatalogModel.ofColumns_ok h).2.1]
    have wrappers : ∀ c ∈ cs,
        identOf (wrapperName options.withSchema c) ≠ Ident.plain "gen" := by
      intro c _
      refine Declaration.identOf_ne_gen (Catalog.word_wrapperName options.withSchema c) ?_
      intro same
      have underscore := Catalog.underscore_wrapperName options.withSchema c
      rw [same] at underscore
      exact absurd underscore (by decide)
    rw [List.forall_mem_cons, List.forall_mem_append, List.forall_mem_map, List.forall_mem_map]
    constructor
    · intro all
      exact ⟨all _ (Catalog.mem_placedNames.mpr (.inl rfl)),
        fun k hk => all _ (Catalog.mem_placedNames.mpr (.inr (.inl ⟨k, hk, rfl⟩))),
        fun c hc => all _ (Catalog.mem_placedNames.mpr (.inr (.inr ⟨c, hc, .inl rfl⟩)))⟩
    · rintro ⟨registry, tables, columns⟩ n mem
      rcases Catalog.mem_placedNames.mp mem with rfl | ⟨k, hk, rfl⟩ | ⟨c, hc, rfl | rfl⟩
      · exact registry
      · exact tables k hk
      · exact columns c hc
      · exact wrappers c hc
  | directory h =>
    rw [(Directory.describe_ok h).1]
    constructor
    · intro all n mem
      exact all n (Directory.mem_placedNames.mpr (.inr mem))
    · intro constants n mem
      rcases Directory.mem_placedNames.mp mem with ⟨v, -, rfl⟩ | constant
      · exact Declaration.identOf_ne_gen v.word_declaredName v.declaredName_ne_gen
      · exact constants n constant

/-- In what is rendered of a model each name stands as its identifier, and these identifiers are
legal in the edition of 2024 exactly if no name of the namespace, the registry, a table, a column or
a file is read as the one keyword that earlier editions do not have. -/
theorem Modelled.legal_render_iff (h : Modelled ds names) (hr : render ns ds options = .ok text) :
    ∃ path body, Declaration.runtimePath options.runtime = .ok path ∧
      formatTokens (Namespace.allowances ++
        Namespace.nestTokens ((Namespace.segments ns).map identOf)
          (ds.flatMap (template path))) = .ok body ∧
      text = Header.text options.license options.provenance ++ body ∧
      (∀ n ∈ Namespace.segments ns ++ ds.flatMap placedNames, Stands n) ∧
      ((∀ n ∈ Namespace.segments ns ++ ds.flatMap placedNames, (identOf n).Legal) ↔
        ∀ n ∈ Namespace.segments ns ++ names, identOf n ≠ Ident.plain "gen") := by
  obtain ⟨path, body, read, formatted, whole, stands⟩ := h.placed hr
  refine ⟨path, body, read, formatted, whole, stands, ?_⟩
  have each : (∀ n ∈ Namespace.segments ns ++ ds.flatMap placedNames, (identOf n).Legal) ↔
      ∀ n ∈ Namespace.segments ns ++ ds.flatMap placedNames, identOf n ≠ Ident.plain "gen" :=
    forall₂_congr fun n mem => Ident.legal_iff (stands n mem).isName
  rw [each, List.forall_mem_append, List.forall_mem_append, h.forall_ne_gen]

/-- Keywords that are known as such become raw wherever they stand. -/
theorem legal_of_keyword_names :
    let root := Directory.mk "" ["async", "yield"] [.mk "match" ["try"] [] true] true
    let options : RenderOptions := ⟨"runtime", none, Provenance.own ⟨2024, 1, 2, 3, 4, 5, 0⟩⟩
    ∃ ds text, root.describe = .ok ds ∧ render "type.loop" ds options = .ok text ∧
      ∀ n ∈ Namespace.segments "type.loop" ++ ds.flatMap placedNames, (identOf n).Legal := by
  intro root options
  have described : root.describe.toBool = true := by decide +kernel
  have emitted : (root.describe.bind (Declaration.listTokens options.runtime)).toBool = true := by
    decide +kernel
  have nests : (Namespace.tokens "type.loop" []).toBool = true := by decide +kernel
  obtain ⟨ds, hd⟩ := Declaration.exists_ok described
  rw [hd, Except.bind] at emitted
  obtain ⟨items, hi⟩ := Declaration.exists_ok emitted
  obtain ⟨nested, hn⟩ := Declaration.exists_ok nests
  have rendered : ∃ text, render "type.loop" ds options = .ok text :=
    Directory.exists_render hd hi hn
  obtain ⟨text, hr⟩ := rendered
  obtain ⟨path, body, -, -, -, -, legal⟩ := Modelled.legal_render_iff (.directory hd) hr
  exact ⟨ds, text, hd, hr, legal.mpr (by decide +kernel)⟩

/-- The code for a directory with a file that is named like the keyword. -/
def codeWithGen : String :=
  "#[allow(non_camel_case_types, non_snake_case, non_upper_case_globals, dead_code)]\n" ++
    "pub mod g \x7b\n    /// Resources under \x60/\x60.\n    pub struct Root;\n    impl Root \x7b\n" ++
    "        pub const gen: &'static str = \"/gen\";\n    \x7d\n\x7d\n"

/-- A file that is named like the keyword that is not known as one becomes a constant of that
name. -/
theorem render_of_gen :
    let root := Directory.mk "" ["gen"] [] true
    let options : RenderOptions := ⟨"runtime", none, Provenance.own ⟨2024, 1, 2, 3, 4, 5, 0⟩⟩
    "gen" ∈ Code.editionKeywords ∧ ¬(identOf (Name.sanitize "gen")).Legal ∧
      ∃ ds, root.describe = .ok ds ∧
        render "g" ds options = .ok (Header.text none options.provenance ++ codeWithGen) := by
  intro root options
  have described : root.describe.toBool = true := by decide +kernel
  have rendered : (root.describe >>= fun ds => renderCode "g" ds "runtime").toOption =
      some codeWithGen := by
    decide +kernel
  obtain ⟨ds, hd⟩ := Declaration.exists_ok described
  rw [hd] at rendered
  change (renderCode "g" ds "runtime").toOption = some codeWithGen at rendered
  refine ⟨by decide, by decide +kernel, ds, hd, ?_⟩
  change (renderCode "g" ds "runtime").map _ = _
  cases code : renderCode "g" ds "runtime" with
  | error e =>
    rw [code] at rendered
    cases rendered
  | ok body =>
    rw [code] at rendered
    cases rendered
    rfl

end TypedDecl
