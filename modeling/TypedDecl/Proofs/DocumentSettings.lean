import TypedDecl.Proofs.Toml.Paths
import TypedDecl.Proofs.TypeSettings

namespace TypedDecl.Settings

open Text (Increasing)
open Toml (Value)

variable {document : Value} {path : List String}

/-- The setting stands under the path, or nothing does and it is the standard one. -/
def Given {α : Type} (document : Value) (path : List String) (toValue : α → Value)
    (standard x : α) : Prop :=
  document.At path (toValue x) ∨ (∀ v, ¬ document.At path v) ∧ x = standard

/-- The text stands under the path, or nothing does and there is none. -/
def GivenOptional (document : Value) (path : List String) : Option String → Prop
  | some s => document.At path (.text s)
  | none => ∀ v, ¬ document.At path v

/-- Whatever stands under the path is a text. -/
def HoldsText (document : Value) (path : List String) : Prop :=
  ∀ v, document.At path v → ∃ s, v = .text s

structure ReadsSource (document : Value) (s : SourceSettings) : Prop where
  server : Given document ["sql", "source", "server"] .text SourceSettings.defaultServer s.server
  database : GivenOptional document ["sql", "source", "database"] s.database
  connectionString :
    GivenOptional document ["sql", "source", "connection_string"] s.connectionString
  userId : GivenOptional document ["sql", "source", "user_id"] s.userId
  password : GivenOptional document ["sql", "source", "password"] s.password

/-- The entries for the type map are texts by their keys, in order. -/
structure ReadsTypes (document : Value) (path : List String)
    (types : List (String × String)) : Prop where
  entry : ∀ key v, document.At (path ++ [key]) v ↔ ∃ target, v = .text target ∧ (key, target) ∈ types
  ordered : Increasing (types.map Prod.fst)

structure ReadsSql (document : Value) (s : SqlSettings) : Prop where
  namespaceText :
    Given document ["sql", "namespace"] .text SqlSettings.standard.namespaceText s.namespaceText
  withSchema :
    Given document ["sql", "include_schema"] .bool SqlSettings.standard.withSchema s.withSchema
  registry : Given document ["sql", "registry"] .text SqlSettings.standard.registry s.registry
  runtime : Given document ["sql", "runtime"] .text SqlSettings.standard.runtime s.runtime
  output : Given document ["sql", "output"] .text SqlSettings.standard.output s.output
  source : ReadsSource document s.source
  types : ReadsTypes document ["sql", "types"] s.types

structure ReadsStaticMap (document : Value) (s : StaticMapSettings) : Prop where
  namespaceText : Given document ["static_map", "namespace"] .text
    StaticMapSettings.standard.namespaceText s.namespaceText
  output :
    Given document ["static_map", "output"] .text StaticMapSettings.standard.output s.output

/-- Each setting is what the document has under its path, or else the standard one. -/
structure Reads (document : Value) (s : Settings) : Prop where
  license : Given document ["license"] .text standard.license s.license
  sql : ReadsSql document s.sql
  staticMap : ReadsStaticMap document s.staticMap

/-- The paths of the settings that are texts. -/
def textPaths : List (List String) :=
  [["license"], ["sql", "namespace"], ["sql", "registry"], ["sql", "runtime"], ["sql", "output"],
    ["sql", "source", "server"], ["sql", "source", "database"],
    ["sql", "source", "connection_string"], ["sql", "source", "user_id"],
    ["sql", "source", "password"], ["static_map", "namespace"], ["static_map", "output"]]

/-- The paths of the settings that have other settings in them. -/
def sectionPaths : List (List String) :=
  [["sql"], ["sql", "source"], ["sql", "types"], ["static_map"]]

/-- What stands where a section belongs is a table. -/
def HasSections (document : Value) : Prop :=
  ∀ path ∈ sectionPaths, ∀ v, document.At path v → ∃ entries, v = .table entries

/-- Every known setting that is there is of its kind. -/
structure WellTyped (document : Value) : Prop where
  texts : ∀ path ∈ textPaths, HoldsText document path
  withSchema : ∀ v, document.At ["sql", "include_schema"] v → ∃ b, v = .bool b
  types : ∀ key, HoldsText document ["sql", "types", key]

/-- A path that a setting is read from. -/
def Known (path : List String) : Prop :=
  path ∈ textPaths ∨ path = ["sql", "include_schema"] ∨ ∃ key, path = ["sql", "types", key]

section Readers

variable {o : Option Value}

/-- What a reader is given is what stands under the path. -/
def Stands (document : Value) (path : List String) (o : Option Value) : Prop :=
  ∀ v, o = some v ↔ document.At path v

theorem textOr_eq_some {std x : String} (h : Stands document path o) :
    textOr std o = some x ↔ Given document path .text std x := by
  simp only [Given, ← h _]
  cases o with
  | none => simp [textOr, optional, eq_comm]
  | some v => cases v <;> simp [textOr, optional]

theorem boolOr_eq_some {std x : Bool} (h : Stands document path o) :
    boolOr std o = some x ↔ Given document path .bool std x := by
  simp only [Given, ← h _]
  cases o with
  | none => simp [boolOr, eq_comm]
  | some v => cases v <;> simp [boolOr]

theorem optional_eq_some {x : Option String} (h : Stands document path o) :
    optional o = some x ↔ GivenOptional document path x := by
  cases x <;> simp only [GivenOptional, ← h _]
  all_goals
    cases o with
    | none => simp [optional]
    | some v => cases v <;> simp [optional]

theorem exists_textOr {std : String} (h : Stands document path o) :
    (∃ x, textOr std o = some x) ↔ HoldsText document path := by
  simp only [HoldsText, ← h _]
  cases o with
  | none => simp [textOr, optional]
  | some v => cases v <;> simp [textOr, optional]

theorem exists_boolOr {std : Bool} (h : Stands document path o) :
    (∃ x, boolOr std o = some x) ↔ ∀ v, document.At path v → ∃ b, v = .bool b := by
  simp only [← h _]
  cases o with
  | none => simp [boolOr]
  | some v => cases v <;> simp [boolOr]

theorem exists_optional (h : Stands document path o) :
    (∃ x, optional o = some x) ↔ HoldsText document path := by
  simp only [HoldsText, ← h _]
  cases o with
  | none => simp [optional]
  | some v => cases v <;> simp [optional]

theorem textEntry?_eq_some {e : String × Value} {x : String × String} :
    textEntry? e = some x ↔ e = (x.1, .text x.2) := by
  obtain ⟨key, v⟩ := e
  cases v <;> simp [ textEntry?, Prod.ext_iff, eq_comm]

theorem mapM_textEntry?_cons {e : String × Value} {entries : List (String × Value)}
    {es : List (String × String)} : (e :: entries).mapM textEntry? = some es ↔
      ∃ x xs, textEntry? e = some x ∧ entries.mapM textEntry? = some xs ∧ es = x :: xs := by
  rw [List.mapM_cons]
  simp only [Option.bind_eq_bind, Option.bind_eq_some_iff, Option.pure_def, Option.some.injEq]
  grind

/-- Entries are all texts exactly if they are those of texts by key. -/
theorem mapM_textEntry?_eq_some {entries : List (String × Value)} {es : List (String × String)} :
    entries.mapM textEntry? = some es ↔ entries = es.map fun e => (e.1, .text e.2) := by
  induction entries generalizing es with
  | nil => cases es <;> simp
  | cons e entries ih =>
    simp only [mapM_textEntry?_cons, textEntry?_eq_some, ih]
    constructor
    · rintro ⟨x, xs, rfl, rfl, rfl⟩
      rfl
    · intro split
      obtain ⟨x, xs, rfl, first, others⟩ := List.map_eq_cons_iff.mp split.symm
      exact ⟨x, xs, first.symm, others.symm, rfl⟩

theorem exists_mapM_textEntry? {entries : List (String × Value)} :
    (∃ es, entries.mapM textEntry? = some es) ↔ ∀ e ∈ entries, ∃ s, e.2 = .text s := by
  induction entries with
  | nil => simp
  | cons e entries ih =>
    simp only [mapM_textEntry?_cons, textEntry?_eq_some]
    rw [List.forall_mem_cons, ← ih]
    constructor
    · rintro ⟨es, x, xs, rfl, others, -⟩
      exact ⟨⟨x.2, rfl⟩, xs, others⟩
    · rintro ⟨⟨s, text⟩, xs, others⟩
      exact ⟨_, (e.1, s), xs, by rw [← text], others, rfl⟩

/-- What stands under one key more is an entry of the table that stands there. -/
theorem Stands.at_entry {entries : List (String × Value)} {key : String} {v : Value}
    (h : Stands document path (some (.table entries))) :
    document.At (path ++ [key]) v ↔ (key, v) ∈ entries := by
  simp only [Value.at_append, ← h _, Value.at_cons, Value.at_nil]
  simp

theorem Stands.not_at {key : String} {v : Value} (h : Stands document path none) :
    ¬ document.At (path ++ [key]) v := by
  simp [Value.at_append, ← h _]

/-- A document tells the entries for the type map and their order. -/
theorem ReadsTypes.unique {a b : List (String × String)} (ha : ReadsTypes document path a)
    (hb : ReadsTypes document path b) : a = b := by
  have same : ∀ e, e ∈ a ↔ e ∈ b := by
    intro e
    have there := (ha.entry e.1 (.text e.2)).symm.trans (hb.entry e.1 (.text e.2))
    simpa using there
  have perm : a.Perm b :=
    (List.perm_ext_iff_of_nodup ha.ordered.nodup.of_map hb.ordered.nodup.of_map).mpr same
  have order := ha.ordered
  have order' := hb.ordered
  rw [Increasing, List.pairwise_map] at order order'
  refine perm.eq_of_pairwise (fun e e' _ _ less greater => ?_) order order'
  exact absurd less (List.lt_asymm greater)

variable {types : List (String × String)}

theorem readsTypes_of_texts (keyed : document.Keyed) (h : Stands document path o)
    (table : ∀ v, document.At path v → ∃ entries, v = .table entries)
    (read : texts o = some types) : ReadsTypes document path types := by
  cases o with
  | none =>
    cases read
    exact ⟨by simp [h.not_at], .nil⟩
  | some v =>
    obtain ⟨entries, rfl⟩ := table v ((h v).mp rfl)
    refine ⟨fun key v => ?_, increasing_texts (fun w mem => keyed.of_at ((h w).mp mem)) read⟩
    obtain ⟨es, texts, rfl⟩ := Option.map_eq_some_iff.mp read
    rw [h.at_entry, mapM_textEntry?_eq_some.mp texts, List.mem_map]
    simp only [List.mem_mergeSort, Prod.ext_iff, Prod.exists]
    grind

theorem exists_texts (h : Stands document path o)
    (table : ∀ v, document.At path v → ∃ entries, v = .table entries) :
    (∃ types, texts o = some types) ↔ ∀ key, HoldsText document (path ++ [key]) := by
  cases o with
  | none => simp [texts, HoldsText, h.not_at]
  | some v =>
    obtain ⟨entries, rfl⟩ := table v ((h v).mp rfl)
    simp only [HoldsText, h.at_entry, texts, Option.map_eq_some_iff]
    constructor
    · rintro ⟨types, es, read, -⟩ key v mem
      exact exists_mapM_textEntry?.mp ⟨es, read⟩ (key, v) mem
    · intro each
      obtain ⟨es, read⟩ := exists_mapM_textEntry?.mpr fun e mem => each e.1 e.2 mem
      exact ⟨_, es, read, rfl⟩

theorem texts_eq_some (keyed : document.Keyed) (h : Stands document path o)
    (table : ∀ v, document.At path v → ∃ entries, v = .table entries) :
    texts o = some types ↔ ReadsTypes document path types := by
  refine ⟨readsTypes_of_texts keyed h table, fun reads => ?_⟩
  obtain ⟨types', read⟩ := (exists_texts h table).mpr fun key v there => by
    obtain ⟨target, text, -⟩ := (reads.entry key v).mp there
    exact ⟨target, text⟩
  rw [read, reads.unique (readsTypes_of_texts keyed h table read)]

end Readers

section Sections

/-- A section has for each name what stands under it behind the path. -/
def Part (document : Value) (path : List String) (part : Section) : Prop :=
  ∀ i name, Stands document (path ++ [name]) (part i name)

theorem part_root {entries : List (String × Value)} (keyed : (Value.table entries).Keyed) :
    Part (.table entries) [] fun _ name => entries.lookup name := by
  intro i name v
  cases keyed with
  | table distinct each =>
    rw [Value.lookup_eq_some_iff distinct]
    simp [Value.at_cons, Value.at_nil]

/-- What is within a section is read from the part of the document that stands there; a section that
is missing is read as one without settings. -/
theorem exists_part {α : Type} {o : Option Value} (std : α) (read : Section → Option α)
    (keyed : document.Keyed) (h : Stands document path o)
    (table : ∀ v, document.At path v → ∃ entries, v = .table entries)
    (empty : read (fun _ _ => none) = some std) :
    ∃ part, Part document path part ∧ within std read o = read part := by
  cases o with
  | none =>
    refine ⟨fun _ _ => none, fun i name v => ?_, empty.symm⟩
    simp [h.not_at]
  | some v =>
    obtain ⟨entries, rfl⟩ := table v ((h v).mp rfl)
    refine ⟨fun _ name => entries.lookup name, fun i name v => ?_, rfl⟩
    rw [h.at_entry]
    cases keyed.of_at ((h _).mp rfl) with
    | table distinct each => exact Value.lookup_eq_some_iff distinct

variable {part : Section}

theorem readSource_eq_some {s : SourceSettings} (h : Part document ["sql", "source"] part) :
    readSource part = some s ↔ ReadsSource document s := by
  simp only [readSource, Option.bind_eq_bind, Option.bind_eq_some_iff, textOr_eq_some (h _ _),
    optional_eq_some (h _ _), Option.pure_def, Option.some.injEq]
  constructor
  · rintro ⟨server, hs, database, hd, text, ht, user, hu, password, hp, rfl⟩
    exact ⟨hs, hd, ht, hu, hp⟩
  · rintro ⟨hs, hd, ht, hu, hp⟩
    exact ⟨_, hs, _, hd, _, ht, _, hu, _, hp, rfl⟩

theorem readSql_eq_some {s : SqlSettings} (keyed : document.Keyed) (sections : HasSections document)
    (h : Part document ["sql"] part) : readSql part = some s ↔ ReadsSql document s := by
  obtain ⟨inner, hi, source⟩ := exists_part SourceSettings.standard readSource keyed
    (h 5 "source") (sections ["sql", "source"] (by simp [sectionPaths])) rfl
  have typed (types) :
      texts (part 6 "types") = some types ↔ ReadsTypes document ["sql", "types"] types :=
    texts_eq_some keyed (h 6 "types") (sections ["sql", "types"] (by simp [sectionPaths]))
  simp only [readSql, source, Option.bind_eq_bind, Option.bind_eq_some_iff, textOr_eq_some (h _ _),
    boolOr_eq_some (h _ _), readSource_eq_some hi, typed, Option.pure_def, Option.some.injEq]
  constructor
  · rintro ⟨namespaceText, hn, withSchema, hw, registry, hr, runtime, hu, output, ho, src, hs,
      types, ht, rfl⟩
    exact ⟨hn, hw, hr, hu, ho, hs, ht⟩
  · rintro ⟨hn, hw, hr, hu, ho, hs, ht⟩
    exact ⟨_, hn, _, hw, _, hr, _, hu, _, ho, _, hs, _, ht, rfl⟩

theorem readStaticMap_eq_some {s : StaticMapSettings} (h : Part document ["static_map"] part) :
    readStaticMap part = some s ↔ ReadsStaticMap document s := by
  simp only [readStaticMap, Option.bind_eq_bind, Option.bind_eq_some_iff, textOr_eq_some (h _ _),
    Option.pure_def, Option.some.injEq]
  constructor
  · rintro ⟨namespaceText, hn, output, ho, rfl⟩
    exact ⟨hn, ho⟩
  · rintro ⟨hn, ho⟩
    exact ⟨_, hn, _, ho, rfl⟩

/-- A document with these entries is read as settings in which each is what the document tells. -/
theorem parse_eq_some {text : String} {entries : List (String × Value)} {s : Settings}
    (valid : Toml.parse text = some entries) (sections : HasSections (.table entries)) :
    parse text = some s ↔ Reads (.table entries) s := by
  have keyed := Toml.keyed_parse valid
  have root := part_root keyed
  obtain ⟨sqlPart, hs, sql⟩ := exists_part SqlSettings.standard readSql keyed (root 1 "sql")
    (sections ["sql"] (by simp [sectionPaths])) rfl
  obtain ⟨mapPart, hm, staticMap⟩ := exists_part StaticMapSettings.standard readStaticMap keyed
    (root 2 "static_map") (sections ["static_map"] (by simp [sectionPaths])) rfl
  have license (x) : textOr standard.license (entries.lookup "license") = some x ↔
      Given (.table entries) ["license"] .text standard.license x :=
    textOr_eq_some (root 0 "license")
  simp only [parse, valid, read, Option.bind_some, sql, staticMap, license, Option.bind_eq_bind,
    Option.bind_eq_some_iff, readSql_eq_some keyed sections hs, readStaticMap_eq_some hm,
    Option.pure_def, Option.some.injEq]
  constructor
  · rintro ⟨license, hl, sql, hs, staticMap, hm, rfl⟩
    exact ⟨hl, hs, hm⟩
  · rintro ⟨hl, hs, hm⟩
    exact ⟨_, hl, _, hs, _, hm, rfl⟩

end Sections

section Existence

variable {α : Type} {standard x : α} {toValue : α → Value}

theorem exists_stands (keyed : document.Keyed) (path : List String) :
    ∃ o, Stands document path o := by
  by_cases there : ∃ v, document.At path v
  · obtain ⟨v, there⟩ := there
    refine ⟨some v, fun w => ⟨?_, fun there' => congrArg some (there.unique keyed there')⟩⟩
    rintro ⟨⟩
    exact there
  · exact ⟨none, fun v => ⟨nofun, fun there' => absurd ⟨v, there'⟩ there⟩⟩

theorem exists_given_text (keyed : document.Keyed) (standard : String) :
    (∃ x, Given document path .text standard x) ↔ HoldsText document path := by
  obtain ⟨o, h⟩ := exists_stands keyed path
  simp only [← textOr_eq_some h, exists_textOr h]

theorem exists_given_bool (keyed : document.Keyed) (standard : Bool) :
    (∃ x, Given document path .bool standard x) ↔
      ∀ v, document.At path v → ∃ b, v = .bool b := by
  obtain ⟨o, h⟩ := exists_stands keyed path
  simp only [← boolOr_eq_some h, exists_boolOr h]

theorem exists_givenOptional (keyed : document.Keyed) :
    (∃ x, GivenOptional document path x) ↔ HoldsText document path := by
  obtain ⟨o, h⟩ := exists_stands keyed path
  simp only [← optional_eq_some h, exists_optional h]

theorem exists_readsTypes (keyed : document.Keyed)
    (table : ∀ v, document.At path v → ∃ entries, v = .table entries) :
    (∃ types, ReadsTypes document path types) ↔ ∀ key, HoldsText document (path ++ [key]) := by
  obtain ⟨o, h⟩ := exists_stands keyed path
  simp only [← texts_eq_some keyed h table, exists_texts h table]

/-- A document can be read exactly if the settings that it has are of their kinds. -/
theorem exists_reads (keyed : document.Keyed) (sections : HasSections document) :
    (∃ s, Reads document s) ↔ WellTyped document := by
  have types := exists_readsTypes keyed (sections ["sql", "types"] (by simp [sectionPaths]))
  constructor
  · rintro ⟨s, license, sql, staticMap⟩
    refine ⟨?_, (exists_given_bool keyed _).mp ⟨_, sql.withSchema⟩, types.mp ⟨_, sql.types⟩⟩
    have text {path standard x} (h : Given document path .text standard x) :
        HoldsText document path := (exists_given_text keyed standard).mp ⟨x, h⟩
    have optional {path x} (h : GivenOptional document path x) : HoldsText document path :=
      (exists_givenOptional keyed).mp ⟨x, h⟩
    simp only [textPaths, List.forall_mem_cons]
    exact ⟨text license, text sql.namespaceText, text sql.registry, text sql.runtime,
      text sql.output, text sql.source.server, optional sql.source.database,
      optional sql.source.connectionString, optional sql.source.userId,
      optional sql.source.password, text staticMap.namespaceText, text staticMap.output, nofun⟩
  · rintro ⟨texts, withSchema, entries⟩
    simp only [textPaths, List.forall_mem_cons] at texts
    obtain ⟨hl, hn, hr, hu, ho, hs, hd, ht, hi, hp, hmn, hmo, -⟩ := texts
    have text {path} (standard : String) (h : HoldsText document path) :=
      (exists_given_text keyed standard).mpr h
    obtain ⟨license, hl⟩ := text Settings.standard.license hl
    obtain ⟨namespaceText, hn⟩ := text SqlSettings.standard.namespaceText hn
    obtain ⟨withSchema, hw⟩ :=
      (exists_given_bool keyed SqlSettings.standard.withSchema).mpr withSchema
    obtain ⟨registry, hr⟩ := text SqlSettings.standard.registry hr
    obtain ⟨runtime, hu⟩ := text SqlSettings.standard.runtime hu
    obtain ⟨output, ho⟩ := text SqlSettings.standard.output ho
    obtain ⟨server, hs⟩ := text SourceSettings.defaultServer hs
    obtain ⟨database, hd⟩ := (exists_givenOptional keyed).mpr hd
    obtain ⟨connectionString, ht⟩ := (exists_givenOptional keyed).mpr ht
    obtain ⟨userId, hi⟩ := (exists_givenOptional keyed).mpr hi
    obtain ⟨password, hp⟩ := (exists_givenOptional keyed).mpr hp
    obtain ⟨entries, he⟩ := types.mpr entries
    obtain ⟨mapNamespace, hmn⟩ := text StaticMapSettings.standard.namespaceText hmn
    obtain ⟨mapOutput, hmo⟩ := text StaticMapSettings.standard.output hmo
    exact ⟨⟨license, ⟨namespaceText, withSchema, registry, runtime, output,
        ⟨server, database, connectionString, userId, password⟩, entries⟩,
        ⟨mapNamespace, mapOutput⟩⟩,
      hl, ⟨hn, hw, hr, hu, ho, ⟨hs, hd, ht, hi, hp⟩, he⟩, ⟨hmn, hmo⟩⟩

end Existence

section Independence

variable {document' : Value}

/-- Both documents have the same under every path that a setting is read from. -/
def SameKnown (document document' : Value) : Prop :=
  ∀ path, Known path → ∀ v, document.At path v ↔ document'.At path v

theorem SameKnown.given {α : Type} {toValue : α → Value} {standard x : α}
    (same : SameKnown document document') (known : Known path)
    (h : Given document path toValue standard x) : Given document' path toValue standard x := by
  simpa only [Given, same path known] using h

theorem SameKnown.givenOptional {x : Option String} (same : SameKnown document document')
    (known : Known path) (h : GivenOptional document path x) : GivenOptional document' path x := by
  cases x <;> simpa only [GivenOptional, same path known] using h

theorem SameKnown.symm (same : SameKnown document document') : SameKnown document' document :=
  fun path known v => (same path known v).symm

theorem SameKnown.reads {s : Settings} (same : SameKnown document document')
    (h : Reads document s) : Reads document' s := by
  obtain ⟨license, sql, staticMap⟩ := h
  have known {path} (mem : path ∈ textPaths) : Known path := .inl mem
  refine ⟨same.given (known (by simp [textPaths])) license, ?_, ?_⟩
  · refine ⟨same.given (known ?_) sql.namespaceText, same.given (.inr (.inl rfl)) sql.withSchema,
      same.given (known ?_) sql.registry, same.given (known ?_) sql.runtime,
      same.given (known ?_) sql.output, ?_, ?_⟩
    · simp [textPaths]
    · simp [textPaths]
    · simp [textPaths]
    · simp [textPaths]
    · exact ⟨same.given (known (by simp [textPaths])) sql.source.server,
        same.givenOptional (known (by simp [textPaths])) sql.source.database,
        same.givenOptional (known (by simp [textPaths])) sql.source.connectionString,
        same.givenOptional (known (by simp [textPaths])) sql.source.userId,
        same.givenOptional (known (by simp [textPaths])) sql.source.password⟩
    · refine ⟨fun key v => ?_, sql.types.ordered⟩
      have there := same ["sql", "types", key] (.inr (.inr ⟨key, rfl⟩)) v
      exact there.symm.trans (sql.types.entry key v)
  · exact ⟨same.given (known (by simp [textPaths])) staticMap.namespaceText,
      same.given (known (by simp [textPaths])) staticMap.output⟩

end Independence

/-- A document whose sections are tables is read exactly if each known setting that it has is of its
kind; each is then what stands under its path, or else the standard one. Documents that have the
same under the known paths are read alike, whatever else they have and in whichever order. -/
theorem parse_by_paths (text : String) (entries : List (String × Value))
    (valid : Toml.parse text = some entries) (sections : HasSections (.table entries)) :
    ((∃ s, parse text = some s) ↔ WellTyped (.table entries)) ∧
    (∀ s, parse text = some s ↔ Reads (.table entries) s) ∧
    ∀ text' entries', Toml.parse text' = some entries' → HasSections (.table entries') →
      SameKnown (.table entries) (.table entries') → parse text' = parse text := by
  have reads (s) : parse text = some s ↔ Reads (.table entries) s := parse_eq_some valid sections
  refine ⟨?_, reads, ?_⟩
  · simp only [reads]
    exact exists_reads (Toml.keyed_parse valid) sections
  · intro text' entries' valid' sections' same
    ext s
    rw [reads, parse_eq_some valid' sections']
    exact ⟨same.symm.reads, same.reads⟩

set_option maxRecDepth 2000 in
/-- Sections in another order, an inline table and unknown keys make no difference. -/
theorem parse_of_unknown_keys :
    let text := "[sql.source]\nport = 1433\ndatabase = 'Blog'\n[sql]\nhue = \x7b\x7d\nregistry = 'Db'\n"
    let text' := "sql = \x7b registry = 'Db', source = \x7b database = 'Blog' \x7d \x7d\n"
    parse text' = parse text ∧ ∃ s, parse text = some s ∧ s.sql.registry = "Db" ∧
      s.sql.source.database = some "Blog" ∧ s.sql.source.server = SourceSettings.defaultServer ∧
      s.license = standard.license := by
  intro text text'
  let entries : List (String × Value) :=
    [("sql", .table [("source", .table [("port", .integer 1433), ("database", .text "Blog")]),
      ("hue", .table []), ("registry", .text "Db")])]
  let entries' : List (String × Value) :=
    [("sql", .table [("registry", .text "Db"), ("source", .table [("database", .text "Blog")])])]
  have valid : Toml.parse text = some entries := by cbv
  have valid' : Toml.parse text' = some entries' := by cbv
  have sections : HasSections (.table entries) := by
    simp [HasSections, sectionPaths, Value.at_cons, Value.at_nil, entries]
  have sections' : HasSections (.table entries') := by
    simp [HasSections, sectionPaths, Value.at_cons, Value.at_nil, entries']
  have same : SameKnown (.table entries) (.table entries') := by
    rintro path (text | rfl | ⟨key, rfl⟩) v
    · revert path
      simp [textPaths, Value.at_cons, Value.at_nil, entries, entries']
    · simp [Value.at_cons, Value.at_nil, entries, entries']
    · simp [Value.at_cons, Value.at_nil, entries, entries']
  have typed : WellTyped (.table entries) := by
    constructor <;> simp [textPaths, HoldsText, Value.at_cons, Value.at_nil, entries]
  obtain ⟨exists_iff, reads, independent⟩ := parse_by_paths text entries valid sections
  obtain ⟨s, read⟩ := exists_iff.mpr typed
  have told := (reads s).mp read
  refine ⟨independent text' entries' valid' sections' same, s, read, ?_, ?_, ?_, ?_⟩
  · simpa [Given, Value.at_cons, Value.at_nil, entries] using told.sql.registry
  · have database := told.sql.source.database
    cases h : s.sql.source.database with
    | none => simp [h, GivenOptional, Value.at_cons, Value.at_nil, entries] at database
    | some t => simpa [h, GivenOptional, Value.at_cons, Value.at_nil, entries] using database
  · simpa [Given, Value.at_cons, Value.at_nil, entries] using told.sql.source.server
  · simpa [Given, Value.at_cons, Value.at_nil, entries] using told.license

end TypedDecl.Settings
