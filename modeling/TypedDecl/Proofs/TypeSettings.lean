import Mathlib
import TypedDecl.Proofs.ByteOrder
import TypedDecl.Proofs.Recasing
import TypedDecl.Proofs.Toml.Keys
import TypedDecl.Settings

namespace TypedDecl

open Text (Increasing SameUpToCase bytes)
open TypeEntries (Lack Last)

namespace Settings

open Toml (Value)

variable {v : Value} {entries : List (String × Value)}

/-- What a section has for a setting is one of its values. -/
theorem keyed_section {s : Section} (keyed : v.Keyed) (h : section? v = some s) (i : Nat)
    (name : String) : ∀ w ∈ s i name, w.Keyed := by
  intro w found
  cases keyed with
  | table distinct each =>
    cases h
    obtain ⟨before, behind, split, -⟩ := List.lookup_eq_some_iff.mp found
    exact each (name, w) (by simp [split])
  | list each =>
    cases h
    exact each w (List.mem_of_getElem? found)
  | date =>
    cases h
    cases found
  | text | bool | integer | float => cases h

theorem keys_mapM_textEntry? {es : List (String × String)} (h : entries.mapM textEntry? = some es) :
    es.map Prod.fst = entries.map Prod.fst := by
  induction entries generalizing es with
  | nil =>
    cases h
    rfl
  | cons e entries ih =>
    obtain ⟨k, v⟩ := e
    rw [List.mapM_cons, Option.bind_eq_bind, Option.bind_eq_some_iff] at h
    obtain ⟨x, first, h⟩ := h
    obtain ⟨xs, others, h⟩ := Option.bind_eq_some_iff.mp h
    cases h
    cases v <;> cases first
    rw [List.map_cons, List.map_cons, ih others]

theorem increasing_texts {o : Option Value} (keyed : ∀ v ∈ o, v.Keyed)
    {es : List (String × String)} (h : texts o = some es) : Increasing (es.map Prod.fst) := by
  unfold texts at h
  split at h
  · cases h
    exact .nil
  · obtain ⟨es, read, rfl⟩ := Option.map_eq_some_iff.mp h
    cases keyed _ rfl with
    | table distinct each =>
      rw [← keys_mapM_textEntry? read] at distinct
      exact Text.increasing_mergeSort distinct
  · cases h
    exact List.pairwise_singleton ..
  · cases h

theorem increasing_readSql {part : Section}
    (keyed : ∀ i name, ∀ v ∈ part i name, v.Keyed) {s : SqlSettings}
    (h : readSql part = some s) : Increasing (s.types.map Prod.fst) := by
  simp only [readSql, Option.bind_eq_bind, Option.bind_eq_some_iff] at h
  obtain ⟨_, -, _, -, _, -, _, -, _, -, _, -, types, read, h⟩ := h
  cases h
  exact increasing_texts (keyed 6 "types") read

/-- The entries for the type map have different keys and come in the order of their bytes. -/
theorem increasing_types {document : String} {s : Settings} (h : parse document = some s) :
    Increasing (s.sql.types.map Prod.fst) := by
  obtain ⟨entries, parsed, h⟩ := Option.bind_eq_some_iff.mp h
  have keyed := keyed_section (Toml.keyed_parse parsed) rfl
  simp only [read, Option.bind_eq_bind, Option.bind_eq_some_iff] at h
  obtain ⟨license, -, sql, read, staticMap, -, h⟩ := h
  cases h
  have own := keyed 1 "sql"
  revert read own
  cases entries.lookup "sql" with
  | none =>
    intro read own
    cases read
    exact .nil
  | some v =>
    intro read own
    obtain ⟨inner, inner_eq, read⟩ := Option.bind_eq_some_iff.mp read
    exact increasing_readSql (keyed_section (own v rfl) inner_eq) read

end Settings

namespace TypeEntries

/-- Of the entries for this native type, the one whose key has the largest bytes has this target. -/
def Greatest (entries : TypeEntries) (native target : String) : Prop :=
  ∃ key, (key, target) ∈ entries ∧ SameUpToCase key native ∧
    ∀ e ∈ entries, SameUpToCase e.1 native → e.1 ≠ key → bytes e.1 < bytes key

theorem last_iff_greatest {entries : TypeEntries} (order : Increasing (entries.map Prod.fst))
    {native target : String} : Last entries native target ↔ Greatest entries native target := by
  rw [Increasing, List.pairwise_map] at order
  constructor
  · rintro ⟨before, key, after, rfl, same, lack⟩
    refine ⟨key, by simp, same, ?_⟩
    intro e mem same' other
    rcases List.mem_append.mp mem with mem | mem
    · exact (List.pairwise_append.mp order).2.2 e mem (key, target) List.mem_cons_self
    · rcases List.mem_cons.mp mem with rfl | mem
      · exact absurd rfl other
      · exact absurd same' (lack e mem)
  · rintro ⟨key, mem, same, greatest⟩
    obtain ⟨before, after, rfl⟩ := List.append_of_mem mem
    refine ⟨before, key, after, rfl, same, ?_⟩
    intro e behind same'
    have larger : bytes key < bytes e.1 :=
      (List.pairwise_cons.mp (List.pairwise_append.mp order).2.1).1 e behind
    have other : e.1 ≠ key := by
      intro equal
      rw [equal] at larger
      exact List.lt_irrefl _ larger
    exact List.lt_asymm larger (greatest e (by simp [behind]) same' other)

end TypeEntries

namespace TypeMap

open TypeEntries (Greatest Has)

/-- Of the entries that are put into a map for a native type, in whichever case its letters A to Z
are, the last one holds, and only without any the standard one; a map has one entry for all native
types that are the same up to case. So in settings the entry with the largest key holds, and the
case in which a catalog has its native types makes no difference. -/
theorem get?_by_last_entry :
    (∀ changes native target, (empty.changed changes).get? native = some target ↔
      Last (changes.flatMap Change.entries) native target) ∧
    (∀ changes native target, (standard.changed changes).get? native = some target ↔
      Last (changes.flatMap Change.entries) native target ∨
        Lack (changes.flatMap Change.entries) native ∧ Has standardTypes native target) ∧
    (∀ changes,
      HasKinds ((changes.flatMap Change.entries).map Prod.fst) (empty.changed changes).size ∧
        HasKinds ((standardTypes ++ changes.flatMap Change.entries).map Prod.fst)
          (standard.changed changes).size) ∧
    (∀ s : SqlSettings, Increasing (s.types.map Prod.fst) → ∀ native target,
      s.catalogOptions.types.get? native = some target ↔
        Greatest s.types native target ∨
          Lack s.types native ∧ Has standardTypes native target) ∧
    (∀ document s, Settings.parse document = some s → Increasing (s.sql.types.map Prod.fst)) ∧
    ∀ options cs cs', Catalog.Recased cs cs' →
      Catalog.SameOutcome (CatalogModel.ofColumns options cs)
        (CatalogModel.ofColumns options cs') := by
  refine ⟨?_, ?_, ?_, ?_, ?_, ?_⟩
  · intro changes native target
    have none_before : empty.get? native = none := rfl
    rw [changed_eq, get?_extend, none_before]
    simp
  · intro changes native target
    rw [changed_eq, get?_extend, get?_standard]
  · intro changes
    rw [changed_eq, changed_eq, standard, ← extend_append]
    exact ⟨hasKinds_size _, hasKinds_size _⟩
  · intro s order native target
    have types : s.catalogOptions.types = standard.extend s.types := rfl
    rw [types, get?_extend, get?_standard, TypeEntries.last_iff_greatest order]
  · intro document s
    exact Settings.increasing_types
  · intro options cs cs'
    exact Catalog.ofColumns_recased options

/-- A document with three entries for one native type is read with its keys in order. -/
theorem parse_three_cases :
    Settings.parse "[sql.types]\nint = 'i64'\nINT = 'i8'\nInt = 'i16'\n" =
      some { Settings.standard with
        sql := { SqlSettings.standard with
          types := [("INT", "i8"), ("Int", "i16"), ("int", "i64")] } } := by
  have document : Toml.parse "[sql.types]\nint = 'i64'\nINT = 'i8'\nInt = 'i16'\n" =
      some [("sql", .table [("types", .table
        [("int", .text "i64"), ("INT", .text "i8"), ("Int", .text "i16")])])] := by
    cbv
  have sorted : Settings.texts (some (.table
      [("int", .text "i64"), ("INT", .text "i8"), ("Int", .text "i16")])) =
        some [("INT", "i8"), ("Int", "i16"), ("int", "i64")] := by
    cbv
  rw [Settings.parse, document, Option.bind_some]
  simp [Settings.read, Settings.within, Settings.section?, Settings.readSql, Settings.textOr,
    Settings.boolOr, Settings.optional, List.lookup_cons, sorted, Settings.standard,
    SqlSettings.standard]

/-- Of three entries for one native type, the one in lower case has the largest key. -/
theorem get?_of_three_cases :
    let s : SqlSettings :=
      { SqlSettings.standard with types := [("INT", "i8"), ("Int", "i16"), ("int", "i64")] }
    let posts (native : String) : List Column := [⟨"dbo", "Posts", "Id", native⟩]
    Settings.parse "[sql.types]\nint = 'i64'\nINT = 'i8'\nInt = 'i16'\n" =
        some { Settings.standard with sql := s } ∧
      Increasing (s.types.map Prod.fst) ∧
      s.catalogOptions.types.get? "iNT" = some "i64" ∧
      Catalog.Recased (posts "int") (posts "iNT") ∧
      Catalog.SameOutcome (CatalogModel.ofColumns s.catalogOptions (posts "int"))
        (CatalogModel.ofColumns s.catalogOptions (posts "iNT")) := by
  intro s posts
  obtain ⟨-, -, -, settings, documents, recasing⟩ := get?_by_last_entry
  have order : Increasing (s.types.map Prod.fst) := documents _ _ parse_three_cases
  have greatest : Greatest s.types "iNT" "i64" := by
    refine ⟨"int", by decide, by decide, ?_⟩
    simp only [← Text.lt_iff_bytes_lt]
    decide
  have recased : Catalog.Recased (posts "int") (posts "iNT") :=
    .cons ⟨rfl, rfl, rfl, by decide⟩ .nil
  exact ⟨parse_three_cases, order, (settings s order "iNT" "i64").mpr (.inl greatest), recased,
    recasing _ _ _ recased⟩

end TypeMap

end TypedDecl
