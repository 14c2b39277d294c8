import TypedDecl.Proofs.Toml.Keys

namespace TypedDecl.Toml

/-- The value stands under these keys, one for each table on the way. -/
inductive Value.At : Value → List String → Value → Prop
  | here (v : Value) : At v [] v
  | under {entries : List (String × Value)} {key : String} {inner v : Value} {path : List String}
      (mem : (key, inner) ∈ entries) (there : At inner path v) : At (.table entries) (key :: path) v

namespace Value

variable {u v w : Value} {entries : List (String × Value)} {key : String} {path : List String}

theorem at_cons : At v (key :: path) w ↔
    ∃ entries inner, v = .table entries ∧ (key, inner) ∈ entries ∧ At inner path w := by
  constructor
  · rintro (_ | ⟨mem, there⟩)
    exact ⟨_, _, rfl, mem, there⟩
  · rintro ⟨entries, inner, rfl, mem, there⟩
    exact .under mem there

theorem at_nil : At v [] w ↔ v = w := by
  constructor
  · rintro ⟨⟩
    rfl
  · rintro rfl
    exact .here v

theorem at_append {more : List String} :
    At v (path ++ more) w ↔ ∃ u, At v path u ∧ At u more w := by
  induction path generalizing v with
  | nil => simp [at_nil]
  | cons key path ih =>
    simp only [List.cons_append, at_cons, ih]
    grind

theorem Keyed.of_at (h : v.Keyed) (there : At v path w) : w.Keyed := by
  induction there with
  | here v => exact h
  | under mem there ih =>
    cases h with
    | table distinct each => exact ih (each _ mem)

theorem lookup_eq_some_iff (distinct : (entries.map Prod.fst).Nodup) :
    entries.lookup key = some v ↔ (key, v) ∈ entries := by
  constructor
  · intro found
    obtain ⟨before, behind, split, -⟩ := List.lookup_eq_some_iff.mp found
    simp [split]
  · intro mem
    obtain ⟨before, behind, rfl⟩ := List.append_of_mem mem
    refine List.lookup_eq_some_iff.mpr ⟨before, behind, rfl, fun e first => ?_⟩
    rw [List.map_append, List.nodup_append] at distinct
    have other := distinct.2.2 e.1 (List.mem_map_of_mem first) key (by simp)
    simpa using other.symm

/-- Where the keys of every table differ, at most one value stands under a path. -/
theorem At.unique (h : v.Keyed) (there : At v path w) (there' : At v path u) : w = u := by
  induction there with
  | here v => exact at_nil.mp there'
  | under mem there ih =>
    obtain ⟨entries, inner, same, mem', there'⟩ := at_cons.mp there'
    cases same
    cases h with
    | table distinct each =>
      have found := (lookup_eq_some_iff distinct).mpr mem
      rw [(lookup_eq_some_iff distinct).mpr mem'] at found
      cases found
      exact ih (each _ mem) there'

end Value

end TypedDecl.Toml
