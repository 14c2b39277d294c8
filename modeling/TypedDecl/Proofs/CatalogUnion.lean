import TypedDecl.Proofs.Describing
import TypedDecl.Proofs.Emission
import TypedDecl.Proofs.Regrouping

namespace TypedDecl

open Catalog (tableKeys columnsOf unmapped?)

namespace Table

section Apart

variable {a b : List Column} (apart : ∀ c ∈ a, ∀ c' ∈ b, c.key ≠ c'.key)
include apart

theorem not_mem_tableKeys_of_apart {k : TableKey} (hk : k ∈ tableKeys a) : k ∉ tableKeys b := by
  intro hk'
  obtain ⟨c, hc, same⟩ := Catalog.mem_tableKeys.mp hk
  obtain ⟨c', hc', same'⟩ := Catalog.mem_tableKeys.mp hk'
  exact apart c hc c' hc' (same.trans same'.symm)

/-- More tables leave those that are there as they are. -/
theorem ofColumns_append (withSchema : Bool) :
    ofColumns withSchema (a ++ b) = ofColumns withSchema a ++ ofColumns withSchema b := by
  have left : ∀ k ∈ tableKeys a, ofKey withSchema (a ++ b) k = ofKey withSchema a k := by
    intro k hk
    have none := Catalog.columnsOf_eq_nil (not_mem_tableKeys_of_apart apart hk)
    rw [ofKey, Catalog.columnsOf_append, none, List.append_nil, ofKey]
  have right : ∀ k ∈ tableKeys b, ofKey withSchema (a ++ b) k = ofKey withSchema b k := by
    intro k hk
    have none := Catalog.columnsOf_eq_nil fun hk' => not_mem_tableKeys_of_apart apart hk' hk
    rw [ofKey, Catalog.columnsOf_append, none, List.nil_append, ofKey]
  rw [ofColumns_eq, ofColumns_eq, ofColumns_eq, Catalog.tableKeys_append apart, List.map_append,
    List.map_congr_left left, List.map_congr_left right]

end Apart

variable {options : CatalogOptions} {ts : List Table} {ds : List Declaration}

theorem describe_eq_ok (h : describe options ts = .ok ds) :
    unmapped? options.types (ts.flatMap columns) = none ∧
      ds = registry options.registry ts :: ts.flatMap (described options.types) := by
  rw [describe_eq] at h
  cases first : unmapped? options.types (ts.flatMap columns) with
  | some c =>
    rw [first] at h
    cases h
  | none =>
    rw [first] at h
    cases h
    exact ⟨rfl, rfl⟩

theorem describe_eq_error {e : Error} (h : describe options ts = .error e) :
    ∃ c, unmapped? options.types (ts.flatMap columns) = some c ∧ e = .unsupportedType c := by
  rw [describe_eq] at h
  cases first : unmapped? options.types (ts.flatMap columns) with
  | some c =>
    rw [first] at h
    cases h
    exact ⟨c, rfl, rfl⟩
  | none =>
    rw [first] at h
    cases h

/-- Among the declarations of tables there is no registry. -/
theorem kind_ne_registry {d : Declaration} (h : d ∈ ts.flatMap (described options.types)) :
    d.kind ≠ .registry := by
  obtain ⟨t, _, hd⟩ := List.mem_flatMap.mp h
  rcases List.mem_cons.mp hd with rfl | column
  · simp [declaration]
  · obtain ⟨c, _, rfl⟩ := List.mem_map.mp column
    simp [wrapper]

/-- The first column without a type is one of the first tables, or there is none in them. -/
theorem unmapped?_flatMap_append (types : TypeMap) (ts ts' : List Table) :
    unmapped? types ((ts ++ ts').flatMap columns) =
      (unmapped? types (ts.flatMap columns)).or (unmapped? types (ts'.flatMap columns)) := by
  rw [List.flatMap_append, Catalog.unmapped?_append]

theorem registry_append (name : String) (ts ts' : List Table) :
    registry name (ts ++ ts') =
      ⟨name, .registry, (registry name ts).members ++ (registry name ts').members⟩ :=
  congrArg (Declaration.mk name .registry) List.map_append

end Table

namespace Catalog

open Table (describe ofColumns)

/-- What two catalogs without a common table become together: one registry with the members of
both, and behind it the declarations of the one and those of the other as they were. The error for
the first catalog comes before that for the second. -/
theorem describe_append (withSchema : Bool) (options : CatalogOptions) {a b : List Column}
    (apart : ∀ c ∈ a, ∀ c' ∈ b, c.key ≠ c'.key) :
    (∀ ds ds', describe options (ofColumns withSchema a) = .ok ds →
      describe options (ofColumns withSchema b) = .ok ds' →
      ∃ r rest r' rest', ds = r :: rest ∧ ds' = r' :: rest' ∧
        r.name = options.registry ∧ r.kind = .registry ∧ r'.name = options.registry ∧
        r'.kind = .registry ∧ (∀ d ∈ rest ++ rest', d.kind ≠ .registry) ∧
        describe options (ofColumns withSchema (a ++ b)) =
          .ok (⟨options.registry, .registry, r.members ++ r'.members⟩ :: (rest ++ rest'))) ∧
    (∀ e, describe options (ofColumns withSchema a) = .error e →
      describe options (ofColumns withSchema (a ++ b)) = .error e) ∧
    (∀ ds e, describe options (ofColumns withSchema a) = .ok ds →
      describe options (ofColumns withSchema b) = .error e →
      describe options (ofColumns withSchema (a ++ b)) = .error e) := by
  have both : describe options (ofColumns withSchema (a ++ b)) =
      describe options (ofColumns withSchema a ++ ofColumns withSchema b) := by
    rw [Table.ofColumns_append apart]
  rw [both, Table.describe_eq options (_ ++ _), Table.unmapped?_flatMap_append]
  refine ⟨?_, ?_, ?_⟩
  · intro ds ds' first second
    obtain ⟨mapped, rfl⟩ := Table.describe_eq_ok first
    obtain ⟨mapped', rfl⟩ := Table.describe_eq_ok second
    refine ⟨_, _, _, _, rfl, rfl, rfl, rfl, rfl, rfl, ?_, ?_⟩
    · rw [← List.flatMap_append]
      exact fun d hd => Table.kind_ne_registry hd
    · rw [mapped, mapped', Option.none_or, Table.registry_append, List.flatMap_append]
  · intro e first
    obtain ⟨c, unmapped, rfl⟩ := Table.describe_eq_error first
    rw [unmapped, Option.some_or]
  · intro ds e first second
    obtain ⟨mapped, rfl⟩ := Table.describe_eq_ok first
    obtain ⟨c, unmapped, rfl⟩ := Table.describe_eq_error second
    rw [mapped, unmapped, Option.none_or]

/-- Two tables in turns, and a table that has the name of one of them in another schema. -/
theorem describe_of_another_schema : ∃ (options : CatalogOptions) (a b b' : List Column),
    options = ⟨true, "SQL", .standard⟩ ∧
    a = [⟨"dbo", "Posts", "Id", "int"⟩, ⟨"dbo", "Tags", "Id", "int"⟩,
      ⟨"dbo", "Posts", "Title", "nvarchar"⟩] ∧
    b = [⟨"audit", "Posts", "Id", "int"⟩] ∧ b' = [⟨"audit", "Posts", "Site", "geometry"⟩] ∧
    (∃ r rest r' rest', describe options (ofColumns true a) = .ok (r :: rest) ∧
      describe options (ofColumns true b) = .ok (r' :: rest') ∧
      describe options (ofColumns true (a ++ b)) =
        .ok (⟨"SQL", .registry, r.members ++ r'.members⟩ :: (rest ++ rest'))) ∧
    describe options (ofColumns true (a ++ b')) =
      .error (.unsupportedType ⟨"audit", "Posts", "Site", "geometry"⟩) := by
  refine ⟨⟨true, "SQL", .standard⟩, _, _, _, rfl, rfl, rfl, rfl, ?_⟩
  obtain ⟨ds, first⟩ := Declaration.exists_ok (x := describe ⟨true, "SQL", .standard⟩
    (ofColumns true [⟨"dbo", "Posts", "Id", "int"⟩, ⟨"dbo", "Tags", "Id", "int"⟩,
      ⟨"dbo", "Posts", "Title", "nvarchar"⟩])) (by decide +kernel)
  obtain ⟨ds', second⟩ := Declaration.exists_ok (x := describe ⟨true, "SQL", .standard⟩
    (ofColumns true [⟨"audit", "Posts", "Id", "int"⟩])) (by decide +kernel)
  have failed : describe ⟨true, "SQL", .standard⟩ (ofColumns true
      [⟨"audit", "Posts", "Site", "geometry"⟩]) =
        .error (.unsupportedType ⟨"audit", "Posts", "Site", "geometry"⟩) := by
    decide +kernel
  constructor
  · obtain ⟨r, rest, r', rest', rfl, rfl, _, _, _, _, _, both⟩ :=
      (describe_append true ⟨true, "SQL", .standard⟩ (by decide)).1 ds ds' first second
    exact ⟨r, rest, r', rest', first, second, both⟩
  · exact (describe_append true ⟨true, "SQL", .standard⟩ (by decide)).2.2 ds _ first failed

end Catalog

end TypedDecl
