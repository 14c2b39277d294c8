import TypedDecl.Proofs.CatalogCode
import TypedDecl.Proofs.FieldTypes
import TypedDecl.Proofs.FileCode
import TypedDecl.Proofs.Naming
import TypedDecl.Proofs.RuntimePath

namespace TypedDecl

open Code (Arg Ident Item Token)
open Code.Lexer (neverRaw)
open Code.Token (word)
open Namespace (Formable)
open Code.Item
open Code.Parser

namespace Declaration

section Formable

variable {r : Runtime}

theorem length_runtime (r : Runtime) (name : String) (names : List String) :
    r.names.length ≤ (runtimeTokens r.path (name :: names)).length := by
  obtain ⟨init, last, split⟩ : ∃ init last, name :: names = init ++ [last] :=
    ⟨_, _, (List.dropLast_append_getLast (List.cons_ne_nil _ _)).symm⟩
  have lead := Code.Path.length_le_leadTokens (r.names ++ init.map plain)
  rw [split, Runtime.tokens_append, List.length_append]
  rw [List.length_append] at lead
  omega

theorem length_commaTokens (rows : List (List Token)) :
    rows.length ≤ (commaTokens rows).length := by
  induction rows with
  | nil => exact Nat.le_refl 0
  | cons row rows ih =>
    rw [commaTokens, List.flatMap_cons, ← commaTokens, List.length_append, List.length_append,
      Code.Token.operator]
    simp
    omega

theorem formable_field {w : Ident} (named : w.isName = true) {row : List Token} {a : Arg}
    (h : Holdable row a) : Formable (fieldRows r w row) (fieldItems r w a) := by
  refine ⟨fun more depth enough deep => ?_, fun n => laid_fieldItems w (h.laid n)⟩
  have names := length_runtime r "Field" []
  have long : 2 * row.length + r.names.length + 10 ≤ (fieldRows r w row).flatten.length := by
    simp only [fieldRows, List.flatten_cons, derived, attributeTokens, publicTokens, tupleTokens,
      fieldType, traitTokens, aliasTokens, Code.Token.group, List.length_append, List.length_cons]
    omega
  obtain ⟨more, rfl⟩ : ∃ m, more = m + 4 := ⟨more - 4, by omega⟩
  obtain ⟨depth, rfl⟩ : ∃ d, depth = d + 5 := ⟨depth - 5, by omega⟩
  exact reads_fieldRows named (h.reads _ _ (by omega) (by omega)) (by omega)

theorem formable_registry {i : Ident} {tables : List Ident} (named : i.isName = true)
    (names : ∀ t ∈ tables, t.isName = true) :
    Formable (registryRows i tables) (registryItems i tables) := by
  refine ⟨fun more depth enough deep => ?_, fun n => laid_registryItems n i tables⟩
  have long : tables.length + 5 ≤ (registryRows i tables).flatten.length := by
    have entries : List.Forall₂ (ReadsNext opens (member (Code.Grammar.nested 4 5) .impl))
        (tables.map entryTokens) (tables.map entryMember) := by
      rw [List.forall₂_map_left_iff, List.forall₂_map_right_iff, List.forall₂_same]
      exact fun t ht => reads_entry (names t ht)
    have counted := length_le_flatten entries
    rw [List.length_map] at counted
    simp only [registryRows, List.flatten_cons, publicTokens, unitTokens, implTokens,
      Code.Token.group, List.length_append, List.length_cons]
    omega
  obtain ⟨more, rfl⟩ : ∃ m, more = m + 4 := ⟨more - 4, by omega⟩
  obtain ⟨depth, rfl⟩ : ∃ d, depth = d + 5 := ⟨depth - 5, by omega⟩
  exact reads_registryRows named names (by omega)

theorem formable_table {c : TableParts} (named : c.Named) : Formable (c.rows r) (c.items r) := by
  refine ⟨fun more depth enough deep => ?_, fun n => laid_tableItems n r c⟩
  have names := length_runtime r "Table" []
  have long : c.slots.length + r.names.length + 10 ≤ (c.rows r).flatten.length := by
    have slots := length_commaTokens (slotRows r c.slots)
    rw [slotRows, List.length_cons, List.length_map, ← slotRows] at slots
    simp only [TableParts.rows, TableParts.memberRows, List.flatten_cons, handleGetter,
      functionTokens, borrowTokens, publicTokens, recordTokens, implTokens, Code.Token.group,
      List.length_append, List.length_cons]
    omega
  obtain ⟨more, rfl⟩ : ∃ m, more = m + 4 := ⟨more - 4, by omega⟩
  obtain ⟨depth, rfl⟩ : ∃ d, depth = d + 5 := ⟨depth - 5, by omega⟩
  exact TableParts.reads_rows named (by omega) (by omega) (by omega)

/-- The code is a row of items that are read back and laid out. -/
def Forms (ts : List Token) : Prop := ∃ rows items, ts = rows.flatten ∧ Formable rows items

theorem forms_of_emits {runtime : Code.Path} {ds : List Declaration} {ts : List Token}
    (h : Emits runtime ds ts)
    (each : ∀ d ∈ ds, ∀ row, tokens runtime d = .ok row → Forms row) : Forms ts := by
  induction h with
  | nil => exact ⟨[], [], rfl, .nil⟩
  | cons first others ih =>
    rw [List.forall_mem_cons] at each
    obtain ⟨rows, items, rfl, here⟩ := each.1 _ first
    obtain ⟨rows', items', rfl, further⟩ := ih each.2
    exact ⟨rows ++ rows', items ++ items', List.flatten_append.symm, here.append further⟩

end Formable

end Declaration

namespace Catalog

/-- The underscore is the only keyword with an underscore in it. -/
theorem length_of_mem_neverRaw {w : String} (mem : w ∈ neverRaw) (underscore : '_' ∈ w.toList) :
    w.toList.length = 1 := by
  have each : ∀ w ∈ neverRaw, '_' ∈ w.toList → w.toList.length = 1 := by decide
  exact each w mem underscore

theorem underscore_wrapperName (withSchema : Bool) (c : Column) :
    '_' ∈ (wrapperName withSchema c).toList := by
  simp [wrapperName]

/-- The name of a schema is joined to that of a table by an underscore. -/
theorem underscore_declaredName (k : TableKey) : '_' ∈ (Table.declaredName true k).toList := by
  have kept : Name.wordChar '_' = '_' := rfl
  simp [Table.declaredName, Name.sanitize, Name.sanitizeChars, kept]

theorem fit_wrapperName (withSchema : Bool) (c : Column) :
    neverRaw.contains (wrapperName withSchema c) = false := by
  rw [← Bool.not_eq_true, List.contains_iff_mem]
  intro mem
  have single := length_of_mem_neverRaw mem (underscore_wrapperName withSchema c)
  have some_char : 0 < (Table.declaredName withSchema c.key).toList.length := by
    refine List.length_pos_iff.mpr fun none => ?_
    have word := Table.word_declaredName withSchema c.key
    rw [none] at word
    cases word
  simp only [wrapperName, String.toList_append, List.length_append] at single
  have underscore : "_".toList.length = 1 := rfl
  omega

/-- A table's own name after its schema's is no keyword unless both are empty. -/
theorem declaredName_mem_neverRaw (k : TableKey) :
    Table.declaredName true k ∈ neverRaw ↔ k.schema = "" ∧ k.table = "" := by
  constructor
  · intro mem
    have chars : (Table.declaredName true k).toList =
        Name.sanitizeChars (k.schema.toList ++ '_' :: k.table.toList) := by
      simp [Table.declaredName, Name.sanitize]
    have single := length_of_mem_neverRaw mem (underscore_declaredName k)
    rw [chars, Name.sanitizeChars, List.length_append, List.length_map, List.length_append,
      List.length_cons] at single
    have none (s : String) (h : s.toList.length = 0) : s = "" := by
      rwa [List.length_eq_zero_iff, String.toList_eq_nil_iff] at h
    exact ⟨none _ (by omega), none _ (by omega)⟩
  · rintro ⟨schema, table⟩
    rw [Table.declaredName, schema, table]
    decide

end Catalog

namespace Declaration

open Catalog (wrapperName columnsOf tableKeys)

variable {options : CatalogOptions} {cs : List Column} {r : Runtime} {row : List Token}

/-- The declaration of a column can be named. -/
theorem ident_wrapperName (withSchema : Bool) (c : Column) :
    ∃ w, ident (wrapperName withSchema c) = .ok w := by
  rw [ident_word_eq (Catalog.word_wrapperName withSchema c), Catalog.fit_wrapperName]
  exact ⟨_, rfl⟩

theorem slot_of_spell {k : TableKey} {c : Column} (hc : c ∈ columnsOf cs k) {s : Spelled}
    (h : spell ((Table.ofKey options.withSchema cs k).member c) = .ok s) :
    ∃ slot : Slot, slot.Named ∧ s = ⟨slot.name, [.ident slot.held], [.literal slot.literal]⟩ := by
  obtain ⟨named, _, _⟩ := spell_ok h
  obtain ⟨w, hw⟩ := ident_wrapperName options.withSchema c
  have name : (Table.ofKey options.withSchema cs k).fieldName c =
      wrapperName options.withSchema c := Table.fieldName_ofKey hc
  have field : ident ((Table.ofKey options.withSchema cs k).fieldName c) = .ok w := name ▸ hw
  have word : Name.Word (Table.ofKey options.withSchema cs k).declared.toList :=
    Table.word_declaredName options.withSchema k
  have made := spell_member word h field
  exact ⟨⟨s.ident, w, Text.Quoted.quote c.name⟩,
    ⟨isName_of_ident named, isName_of_ident hw⟩, made⟩

theorem slots_of_spells {k : TableKey} {columns : List Column}
    (all : ∀ c ∈ columns, c ∈ columnsOf cs k) {spelled : List Spelled}
    (h : List.Forall₂ (fun c s => spell ((Table.ofKey options.withSchema cs k).member c) = .ok s)
      columns spelled) :
    ∃ slots : List Slot, (∀ s ∈ slots, s.Named) ∧
      spelled = slots.map fun s => ⟨s.name, [.ident s.held], [.literal s.literal]⟩ := by
  induction h with
  | nil => exact ⟨[], nofun, rfl⟩
  | cons first _ ih =>
    rw [List.forall_mem_cons] at all
    obtain ⟨slot, named, rfl⟩ := slot_of_spell all.1 first
    obtain ⟨slots, names, rfl⟩ := ih all.2
    exact ⟨slot :: slots, List.forall_mem_cons.mpr ⟨named, names⟩, rfl⟩

theorem forms_table {k : TableKey}
    (h : tokens r.path (Table.ofKey options.withSchema cs k).declaration = .ok row) :
    Forms row := by
  obtain ⟨i, hi, h⟩ := bind_ok h
  obtain ⟨members, spelled, h⟩ := bind_ok h
  cases h
  have each := List.forall₂_map_left_iff.mp (mapM_ok spelled)
  obtain ⟨slots, names, rfl⟩ := slots_of_spells (fun _ hc => hc) each
  let c : TableParts := ⟨i, k.schema, k.table, slots⟩
  exact ⟨_, _, TableParts.tableTokens_eq r c, formable_table ⟨isName_of_ident hi, names⟩⟩

theorem forms_field {k : TableKey} {c : Column} (fits : FitsField (options.types.target c))
    (h : tokens r.path ((Table.ofKey options.withSchema cs k).wrapper options.types c) = .ok row) :
    Forms row := by
  obtain ⟨w, hw, h⟩ := bind_ok h
  obtain ⟨type, typed, h⟩ := bind_ok h
  cases h
  obtain ⟨held, a, same, holdable⟩ := fits
  obtain rfl : held = type := Except.ok.inj (same.symm.trans typed)
  exact ⟨_, _, fieldTokens_eq r w held, formable_field (isName_of_ident hw) holdable⟩

theorem tables_of_spells {ks : List TableKey} {spelled : List Spelled}
    (h : List.Forall₂ (fun k s => spell (Table.ofKey options.withSchema cs k).entry = .ok s)
      ks spelled) :
    ∃ tables : List Ident, (∀ t ∈ tables, t.isName = true) ∧
      spelled = tables.map fun t =>
        ⟨t, [.ident t], callTokens (pathTokens [.ident t] ["new"]) []⟩ := by
  induction h with
  | nil => exact ⟨[], nofun, rfl⟩
  | @cons k s ks spelled first _ ih =>
    obtain ⟨tables, names, rfl⟩ := ih
    have word : Name.Word (Table.ofKey options.withSchema cs k).declared.toList :=
      Table.word_declaredName options.withSchema k
    have entry := spell_entry word first
    have named := isName_of_ident (spell_ok first).1
    refine ⟨s.ident :: tables, List.forall_mem_cons.mpr ⟨named, names⟩, ?_⟩
    rw [List.map_cons, ← entry]

theorem forms_registry
    (h : tokens r.path (Table.registry options.registry
      (Table.ofColumns options.withSchema cs)) = .ok row) : Forms row := by
  obtain ⟨i, hi, h⟩ := bind_ok h
  obtain ⟨members, spelled, h⟩ := bind_ok h
  cases h
  rw [CatalogModel.members_registry] at spelled
  obtain ⟨tables, names, rfl⟩ := tables_of_spells (List.forall₂_map_left_iff.mp (mapM_ok spelled))
  exact ⟨_, _, registryTokens_eq i tables, formable_registry (isName_of_ident hi) names⟩

/-- The names in a declaration: its own and then those of its members. -/
def namesUsed (d : Declaration) : List String := d.name :: d.members.map Member.name

theorem decided_members {ms : List Member}
    (h : ∀ m ∈ ms, DecidedBy [m.name] (spell m)) :
    DecidedBy (ms.map Member.name) (ms.mapM spell) := by
  rw [List.map_eq_flatMap]
  exact .mapM h

theorem decided_registry {i : Ident} (hi : ident options.registry = .ok i) :
    DecidedBy (Table.registry options.registry (Table.ofColumns options.withSchema cs)).namesUsed
      (tokens r.path (Table.registry options.registry (Table.ofColumns options.withSchema cs))) := by
  have members : ∀ m ∈ (Table.registry options.registry
      (Table.ofColumns options.withSchema cs)).members, DecidedBy [m.name] (spell m) := by
    intro m mem
    rw [CatalogModel.members_registry, List.mem_map] at mem
    obtain ⟨k, -, rfl⟩ := mem
    have word : Name.Word (Table.ofKey options.withSchema cs k).declared.toList :=
      Table.word_declaredName options.withSchema k
    exact .spell word fun j named =>
      ⟨⟨_, typeTokens_word word named⟩, _, valueTokens_constructor word named⟩
  exact (DecidedBy.of_ident hi).bind fun j _ => (decided_members members).map _

theorem decided_table (k : TableKey) :
    DecidedBy (Table.ofKey options.withSchema cs k).declaration.namesUsed
      (tokens r.path (Table.ofKey options.withSchema cs k).declaration) := by
  have members : ∀ m ∈ (Table.ofKey options.withSchema cs k).declaration.members,
      DecidedBy [m.name] (spell m) := by
    intro m mem
    obtain ⟨c, hc, rfl⟩ := List.mem_map.mp mem
    have name : (Table.ofKey options.withSchema cs k).fieldName c =
        wrapperName options.withSchema c := Table.fieldName_ofKey hc
    obtain ⟨w, hw⟩ := ident_wrapperName options.withSchema c
    have typed := typeTokens_word (Catalog.word_wrapperName options.withSchema c) hw
    rw [← name] at typed
    exact .spell (Name.word_sanitize c.name) fun _ _ => ⟨⟨_, typed⟩, _, valueTokens_quote c.name⟩
  have named : DecidedBy [(Table.ofKey options.withSchema cs k).declaration.name]
      (ident (Table.ofKey options.withSchema cs k).declaration.name) :=
    .ident (Table.word_declaredName options.withSchema k)
  exact named.bind fun i _ => (decided_members members).map _

theorem decided_field {k : TableKey} {c : Column} (hc : c ∈ columnsOf cs k)
    (fits : FitsField (options.types.target c)) :
    DecidedBy ((Table.ofKey options.withSchema cs k).wrapper options.types c).namesUsed
      (tokens r.path ((Table.ofKey options.withSchema cs k).wrapper options.types c)) := by
  have name : (Table.ofKey options.withSchema cs k).fieldName c =
      wrapperName options.withSchema c := Table.fieldName_ofKey hc
  obtain ⟨w, hw⟩ := ident_wrapperName options.withSchema c
  rw [← name] at hw
  obtain ⟨row, a, typed, -⟩ := fits
  have held : DecidedBy [] (typeTokens (options.types.target c)) := .of_ok typed
  exact (DecidedBy.of_ident hw).bind fun i _ => held.map _

end Declaration

namespace CatalogModel

open Catalog (tableKeys columnsOf wrapperName description)
open Declaration

variable {options : CatalogOptions} {cs : List Column} {m : CatalogModel} {ns : String}
  {settings : RenderOptions}

/-- All names in a model, declaration by declaration. -/
def namesUsed (m : CatalogModel) : List String := m.declarations.flatMap Declaration.namesUsed

/-- Fields can hold the types of all columns. -/
def FitsFields (options : CatalogOptions) (cs : List Column) : Prop :=
  ∀ c ∈ cs, ∀ type, options.types.get? c.native = some type → FitsField type

theorem fits_target (h : ofColumns options cs = .ok m) (fits : FitsFields options cs) {c : Column}
    (hc : c ∈ cs) : FitsField (options.types.target c) := by
  obtain ⟨-, -, -, mapped⟩ := ofColumns_ok h
  exact fits c hc _ (TypeMap.get?_target (mapped c hc))

theorem decided_tokens (h : ofColumns options cs = .ok m) (fits : FitsFields options cs) {i : Ident}
    (hi : ident options.registry = .ok i) (r : Runtime) {d : Declaration}
    (hd : d ∈ m.declarations) : DecidedBy d.namesUsed (tokens r.path d) := by
  obtain ⟨-, declared, -, -⟩ := ofColumns_ok h
  rw [declared] at hd
  rcases Catalog.mem_description.mp hd with rfl | ⟨k, -, rfl⟩ | ⟨k, -, c, hc, rfl⟩
  · exact decided_registry hi
  · exact decided_table k
  · exact decided_field hc (fits_target h fits (Catalog.mem_columnsOf.mp hc).1)

theorem forms_of_tokens (h : ofColumns options cs = .ok m) (fits : FitsFields options cs)
    (r : Runtime) {d : Declaration} (hd : d ∈ m.declarations) {row : List Token}
    (emitted : tokens r.path d = .ok row) : Forms row := by
  obtain ⟨-, declared, -, -⟩ := ofColumns_ok h
  rw [declared] at hd
  rcases Catalog.mem_description.mp hd with rfl | ⟨k, -, rfl⟩ | ⟨k, -, c, hc, rfl⟩
  · exact forms_registry emitted
  · exact forms_table emitted
  · exact forms_field (fits_target h fits (Catalog.mem_columnsOf.mp hc).1) emitted

theorem formatTokens_listTokens (h : ofColumns options cs = .ok m) (fits : FitsFields options cs)
    {r : Runtime} (hr : runtimePath settings.runtime = .ok r.path) {ts : List Token}
    (ht : listTokens settings.runtime m.declarations = .ok ts) {i : Ident} {is : List Ident}
    (names : ∀ j ∈ i :: is, j.isName = true) :
    ∃ text, formatTokens (Namespace.allowances ++ Namespace.nestTokens (i :: is) ts) = .ok text := by
  obtain ⟨path, hp, emits⟩ := emits_of_listTokens ht
  obtain rfl : path = r.path := Except.ok.inj (hp.symm.trans hr)
  obtain ⟨rows, items, rfl, formable⟩ :=
    forms_of_emits emits fun d hd row emitted => forms_of_tokens h fits r hd emitted
  exact formable.formatTokens names

theorem decided_render (h : ofColumns options cs = .ok m) (fits : FitsFields options cs) {i : Ident}
    (hi : ident options.registry = .ok i) {r : Runtime}
    (hr : runtimePath settings.runtime = .ok r.path) {items nested : List Token}
    (hn : Namespace.tokens ns items = .ok nested) :
    DecidedBy m.namesUsed (render ns m.declarations settings) := by
  obtain ⟨j, js, named, taken⟩ := Namespace.tokens_of_ok hn
  have rows : DecidedBy m.namesUsed (listTokens settings.runtime m.declarations) := by
    rw [listTokens, hr]
    exact (DecidedBy.mapM fun d hd => decided_tokens h fits hi r hd).map List.flatten
  have code : DecidedBy (m.namesUsed ++ []) (renderCode ns m.declarations settings.runtime) := by
    refine rows.bind fun ts emitted => ?_
    obtain ⟨text, formatted⟩ := formatTokens_listTokens h fits hr emitted named
    refine ⟨text, ?_⟩
    rw [taken ts]
    exact formatted
  rw [List.append_nil] at code
  exact code.map _

/-- Every name in a model is that of the registry, of a table, or of a column or its declaration. -/
theorem fit_namesUsed (h : ofColumns options cs = .ok m) {i : Ident}
    (hi : ident options.registry = .ok i) :
    (∀ n ∈ m.namesUsed, neverRaw.contains n = false) ↔
      (∀ c ∈ cs, Name.sanitize c.name ∉ neverRaw) ∧
        ∀ k ∈ tableKeys cs, Table.declaredName options.withSchema k ∉ neverRaw := by
  obtain ⟨-, declared, -, -⟩ := ofColumns_ok h
  have member {d : Declaration} (hd : d ∈ description options cs) {n : String}
      (hn : n ∈ d.namesUsed) : n ∈ m.namesUsed := by
    rw [← declared] at hd
    exact List.mem_flatMap.mpr ⟨d, hd, hn⟩
  constructor
  · intro fit
    refine ⟨fun c hc never => ?_, fun k hk never => ?_⟩
    · have key : c.key ∈ tableKeys cs := Catalog.mem_tableKeys.mpr ⟨c, hc, rfl⟩
      have here : Name.sanitize c.name ∈
          (Table.ofKey options.withSchema cs c.key).declaration.namesUsed := by
        refine List.mem_cons_of_mem _ (List.mem_map.mpr ⟨_, List.mem_map.mpr ⟨c, ?_, rfl⟩, rfl⟩)
        exact Catalog.mem_columnsOf.mpr ⟨hc, rfl⟩
      simpa [never] using fit _ (member (Catalog.declaration_mem options key) here)
    · have here := member (Catalog.declaration_mem options hk) List.mem_cons_self
      have same : (Table.ofKey options.withSchema cs k).declaration.name =
          Table.declaredName options.withSchema k := rfl
      simpa [same, never] using fit _ here
  · rintro ⟨columns, tables⟩ n mem
    rw [← Bool.not_eq_true, List.contains_iff_mem]
    obtain ⟨d, hd, hn⟩ := List.mem_flatMap.mp mem
    rw [declared] at hd
    rcases Catalog.mem_description.mp hd with rfl | ⟨k, hk, rfl⟩ | ⟨k, -, c, hc, rfl⟩
    · rcases List.mem_cons.mp hn with rfl | hn
      · have fit := fit_of_ident hi
        rw [← Bool.not_eq_true, List.contains_iff_mem] at fit
        exact fit
      · rw [members_registry, List.map_map, List.mem_map] at hn
        obtain ⟨k, hk, rfl⟩ := hn
        exact tables k hk
    · rcases List.mem_cons.mp hn with rfl | hn
      · exact tables k hk
      · obtain ⟨held, hm, rfl⟩ := List.mem_map.mp hn
        obtain ⟨c, hc, rfl⟩ := List.mem_map.mp hm
        exact columns c (Catalog.mem_columnsOf.mp hc).1
    · obtain rfl : n = (Table.ofKey options.withSchema cs k).fieldName c := List.mem_singleton.mp hn
      have fit := Catalog.fit_wrapperName options.withSchema c
      rw [Table.fieldName_ofKey hc, ← List.contains_iff_mem, fit]
      simp

/-- A model is rendered exactly if no column and no table is named by a keyword without a raw form,
and otherwise the first such name, in the order of the declarations, is the error. With the schema
in it a table's name is such a keyword only if schema and table are empty. The code is always read
back as items. -/
theorem render_iff_fit_names (h : ofColumns options cs = .ok m) (fits : FitsFields options cs)
    {i : Ident} (hi : ident options.registry = .ok i) {r : Runtime}
    (hr : runtimePath settings.runtime = .ok r.path) {items nested : List Token}
    (hn : Namespace.tokens ns items = .ok nested) :
    ((∃ text, render ns m.declarations settings = .ok text) ↔
        (∀ c ∈ cs, Name.sanitize c.name ∉ neverRaw) ∧
          ∀ k ∈ tableKeys cs, Table.declaredName options.withSchema k ∉ neverRaw) ∧
      (∀ name, m.namesUsed.find? neverRaw.contains = some name →
        render ns m.declarations settings = .error (.invalidName name)) ∧
      (∀ k, Table.declaredName true k ∈ neverRaw ↔ k.schema = "" ∧ k.table = "") ∧
      ∀ rows ts, listTokens settings.runtime m.declarations = .ok rows →
        Namespace.tokens ns rows = .ok ts → (Item.listOfTokens? ts).isSome = true := by
  have decided := decided_render h fits hi hr hn
  refine ⟨decided.exists_ok_iff.trans (fit_namesUsed h hi), fun name first => decided.eq_error first,
    Catalog.declaredName_mem_neverRaw, fun rows ts emitted nested => ?_⟩
  obtain ⟨j, js, -, named, rfl⟩ := Namespace.tokens_ok nested
  obtain ⟨text, formatted⟩ := formatTokens_listTokens h fits hr emitted named
  exact Namespace.isSome_of_formatTokens formatted

/-- The first table without a name is the error, before the column that is named by a keyword. All
types are those that catalogs have by themselves. -/
theorem render_of_standard_types : ∃ m nested, ∃ r : Runtime,
    ofColumns ⟨true, "Catalog", .standard⟩
        [⟨"dbo", "Posts", "crate", "int"⟩, ⟨"", "", "Id", "datetimeoffset"⟩] = .ok m ∧
      Namespace.tokens "site.model" [] = .ok nested ∧ runtimePath "a::b" = .ok r.path ∧
      ((∃ text, render "site.model" m.declarations
          ⟨"a::b", none, Provenance.own ⟨2024, 1, 2, 3, 4, 5, 0⟩⟩ = .ok text) ↔
        (∀ c ∈ [⟨"dbo", "Posts", "crate", "int"⟩, ⟨"", "", "Id", "datetimeoffset"⟩],
          Name.sanitize (Column.name c) ∉ neverRaw) ∧
        ∀ k ∈ tableKeys [⟨"dbo", "Posts", "crate", "int"⟩, ⟨"", "", "Id", "datetimeoffset"⟩],
          Table.declaredName true k ∉ neverRaw) ∧
      render "site.model" m.declarations
        ⟨"a::b", none, Provenance.own ⟨2024, 1, 2, 3, 4, 5, 0⟩⟩ = .error (.invalidName "_") := by
  let options : CatalogOptions := ⟨true, "Catalog", .standard⟩
  let columns : List Column := [⟨"dbo", "Posts", "crate", "int"⟩, ⟨"", "", "Id", "datetimeoffset"⟩]
  let settings : RenderOptions := ⟨"a::b", none, Provenance.own ⟨2024, 1, 2, 3, 4, 5, 0⟩⟩
  have described : (ofColumns options columns).toBool = true := by decide +kernel
  have nests : (Namespace.tokens "site.model" []).toBool = true := by decide +kernel
  have registry : ident "Catalog" = .ok (plain "Catalog") := rfl
  have fits : FitsFields options columns := fun c _ type mapped => fitsField_standard mapped
  obtain ⟨m, hm⟩ := exists_ok described
  obtain ⟨nested, hn⟩ := exists_ok nests
  obtain ⟨r, hr⟩ : ∃ r : Runtime, runtimePath "a::b" = .ok r.path := by
    have named : ∀ n ∈ ["a"] ++ ["b"], (plain n).isName = true := by decide
    have texts : ∀ n ∈ ["a"] ++ ["b"], Code.NameText n.toList := by
      simpa using ⟨.intro (by decide) nofun, .intro (by decide) nofun⟩
    have joined : "a::b" = "::".intercalate (["a"] ++ ["b"]) := rfl
    exact ⟨_, joined ▸ Runtime.runtimePath_intercalate named texts⟩
  obtain ⟨exactly, fails, -⟩ :=
    @render_iff_fit_names options columns m "site.model" settings hm fits _ registry r hr _ _ hn
  have first : m.namesUsed.find? neverRaw.contains = some "_" := by
    obtain ⟨-, declared, -, -⟩ := ofColumns_ok hm
    rw [namesUsed, declared]
    decide +kernel
  exact ⟨m, nested, r, hm, hn, hr, exactly, fails "_" first⟩

/-- A type can be read that has no layout. -/
theorem render_of_starred_object : ∃ m,
    ofColumns ⟨true, "Catalog", .insert .empty "int" "dyn* Debug"⟩
        [⟨"dbo", "Posts", "Id", "int"⟩] = .ok m ∧
      (typeTokens "dyn* Debug").toBool = true ∧
      render "site" m.declarations ⟨"runtime", none, Provenance.own ⟨2024, 1, 2, 3, 4, 5, 0⟩⟩ =
        .error .noLayout := by
  refine ⟨_, rfl, ?_⟩
  decide +kernel

end CatalogModel

end TypedDecl
