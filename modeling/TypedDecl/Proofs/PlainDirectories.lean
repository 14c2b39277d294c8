import TypedDecl.Proofs.BuiltDirectories
import TypedDecl.Proofs.DirectoryCode
import TypedDecl.Proofs.PlainNames
import TypedDecl.Proofs.Violations

namespace TypedDecl.Directory

open Declaration (Taken Violation)
open Name (Plain)
open Relation (ReflTransGen TransGen)

variable {root : Directory} {v : Visit}

theorem Visit.declaredName_plain (plain : ∀ n ∈ v.way, Plain n) :
    v.declaredName = "_".intercalate ("Root" :: v.way) := by
  have each : v.way.map (fun n => "_" ++ Name.sanitize n) = v.way.map ("_" ++ ·) := by
    refine List.map_congr_left fun n hn => ?_
    rw [(plain n hn).sanitize_eq]
  have joined (first : String) (names : List String) :
      first ++ String.join (names.map ("_" ++ ·)) = "_".intercalate (first :: names) := by
    induction names generalizing first with
    | nil => simp
    | cons n names ih =>
      rw [List.map_cons, String.join_cons, String.intercalate_cons_cons, ← ih]
      simp only [String.append_assoc]
  rw [declaredName, each, joined]

/-- Ways through plain names are told by the names of the declarations. -/
theorem Visit.way_eq_of_declaredName {u : Visit} (plain : ∀ n ∈ v.way, Plain n)
    (plain' : ∀ n ∈ u.way, Plain n) (same : v.declaredName = u.declaredName) : v.way = u.way := by
  have parts {way : List String} (h : ∀ n ∈ way, Plain n) :
      "Root" :: way ∈ {names : List String | names ≠ [] ∧ ∀ n ∈ names, '_' ∉ n.toList} := by
    refine ⟨List.cons_ne_nil _ _, List.forall_mem_cons.mpr ⟨by decide, fun n hn => ?_⟩⟩
    exact (h n hn).not_mem_underscore
  rw [declaredName_plain plain, declaredName_plain plain'] at same
  exact (List.cons.inj (Name.injOn_intercalate (parts plain) (parts plain') same)).2

/-- The declarations of directories with plain names have different names. -/
theorem nodup_declaredNames (unrepeated : Unrepeated root)
    (plain : ∀ d, TransGen Child root d → Plain d.name) :
    (root.visits.map Visit.declaredName).Nodup := by
  have ways := unrepeated.nodup_ways
  have named := forall_names_iff.mpr plain
  rw [List.Nodup, List.pairwise_map] at ways ⊢
  refine ways.imp_of_mem fun {v u} hv hu different same => different ?_
  exact Visit.way_eq_of_declaredName (named v hv) (named u hu) same

theorem describe_eq (root : Directory) :
    root.describe = (Declaration.checkDistinct (root.visits.map Visit.declaration)).map
      fun _ => root.visits.map Visit.declaration := by
  rw [describe, root.preOrder_tree]
  cases Declaration.checkDistinct (root.visits.map Visit.declaration) <;> rfl

theorem Visit.membersDistinct_iff :
    v.declaration.MembersDistinct ↔ (v.exposed = true → (v.files.map Name.sanitize).Nodup) := by
  have names : v.declaration.members.map Member.name =
      (if v.exposed then v.files else []).map Name.sanitize := by
    rw [v.members_declaration, List.map_map]
    rfl
  rw [Declaration.membersDistinct_iff, names]
  constructor
  · rintro ⟨nodup, -⟩ shown
    rwa [if_pos shown] at nodup
  · intro nodup
    refine ⟨?_, nofun⟩
    split_ifs with shown
    · exact nodup shown
    · exact List.nodup_nil

/-- If the names of directories are different, only the files of one directory can meet. -/
theorem collision_of_describe (nodup : (root.visits.map Visit.declaredName).Nodup) {e : Error}
    (h : root.describe = .error e) :
    ∃ v ∈ root.visits, ∃ f ∈ v.files,
      e = .collision (Name.sanitize f) (.declaration v.declaredName) := by
  have first := Declaration.checkFrom_first (root.visits.map Visit.declaration) []
  rw [describe_eq, Declaration.checkDistinct] at h
  cases checked : Declaration.checkFrom (root.visits.map Visit.declaration) [] with
  | ok u =>
    rw [checked] at h
    cases h
  | error e' =>
    rw [checked] at h first
    cases h
    obtain ⟨i, j, ⟨d, here, taken⟩, -⟩ := first
    rw [List.getElem?_map, Option.map_eq_some_iff] at here
    obtain ⟨v, here, rfl⟩ := here
    have mem : v ∈ root.visits := List.mem_of_getElem? here
    cases taken with
    | own known =>
      rw [List.reverse_nil, List.nil_append, ← List.map_take, List.map_map] at known
      have front : v.declaredName ∈ (root.visits.map Visit.declaredName).take i := by
        rwa [← List.map_take]
      have back : v.declaredName ∈ (root.visits.map Visit.declaredName).drop i := by
        rw [← List.head?_drop] at here
        rw [← List.map_drop]
        exact List.mem_map_of_mem (List.mem_of_mem_head? here)
      exact absurd back (List.disjoint_take_drop nodup (Nat.le_refl i) front)
    | handle j m here schema table kind same => cases kind
    | member j m here known =>
      have member : m ∈ v.declaration.members := List.mem_of_getElem? here
      rw [v.members_declaration] at member
      obtain ⟨f, hf, rfl⟩ := List.mem_map.mp member
      refine ⟨v, mem, f, ?_, rfl⟩
      split_ifs at hf
      · exact hf
      · cases hf

/-- Directories with plain names are described exactly if, in each of them whose files are exposed,
the files have different names when sanitized. Declarations of directories never meet, so if the
description fails then over two files of one directory. -/
theorem describe_of_plain_names (built : Built root)
    (plain : ∀ d, TransGen Child root d → Plain d.name) :
    ((∃ ds, root.describe = .ok ds) ↔
      ∀ d, ReflTransGen Child root d → d.exposed = true →
        (d.files.map Name.sanitize).Nodup) ∧
    (root.tree.preOrder.map Declaration.name).Nodup ∧
    ∀ e, root.describe = .error e → ∃ v ∈ root.visits, ∃ f ∈ v.files,
      e = .collision (Name.sanitize f) (.declaration v.declaredName) := by
  have nodup := nodup_declaredNames built.unrepeated plain
  have names : (root.visits.map Visit.declaration).map Declaration.name =
      root.visits.map Visit.declaredName := by
    rw [List.map_map]
    rfl
  refine ⟨?_, by rwa [root.preOrder_tree, names], fun e => collision_of_describe nodup⟩
  have distinct : (∃ ds, root.describe = .ok ds) ↔
      Declaration.Distinct (root.visits.map Visit.declaration) := by
    rw [describe_eq, ← Declaration.checkDistinct_eq_ok]
    cases Declaration.checkDistinct (root.visits.map Visit.declaration) <;> simp [Except.map]
  rw [distinct, Declaration.Distinct, names, and_iff_right nodup, List.forall_mem_map]
  simp only [Visit.membersDistinct_iff]
  exact forall_visits_iff (p := fun files exposed =>
    exposed = true → (files.map Name.sanitize).Nodup)

/-- Names that begin alike, on ways of different lengths, and files that would meet if they were
exposed. -/
theorem describe_of_nested_names : ∃ root : Directory,
    root = ((empty "").addChild
      (((empty "a").addChild ((empty "bc").addFile "x.y")).addFile "b-c")).addChild
      ((((empty "ab").addChild (empty "c")).addFile "x.y" |>.addFile "x_y").expose false) ∧
    Built root ∧ (∀ d, TransGen Child root d → Plain d.name) ∧
    ((∃ ds, root.describe = .ok ds) ↔
      ∀ d, ReflTransGen Child root d → d.exposed = true →
        (d.files.map Name.sanitize).Nodup) ∧
    (root.tree.preOrder.map Declaration.name).Nodup ∧
    ∀ e, root.describe = .error e → ∃ v ∈ root.visits, ∃ f ∈ v.files,
      e = .collision (Name.sanitize f) (.declaration v.declaredName) := by
  have left : Built (((empty "a").addChild ((empty "bc").addFile "x.y")).addFile "b-c") :=
    ((Built.empty "a").child [] ((Built.empty "bc").file [] "x.y")).file [] "b-c"
  have right : Built ((((empty "ab").addChild (empty "c")).addFile "x.y" |>.addFile "x_y").expose
      false) :=
    ((((Built.empty "ab").child [] (.empty "c")).file [] "x.y").file [] "x_y").expose [] false
  have built := ((Built.empty "").child [] left).child [] right
  have plain : ∀ v ∈ Directory.visits (((empty "").addChild
      (((empty "a").addChild ((empty "bc").addFile "x.y")).addFile "b-c")).addChild
      ((((empty "ab").addChild (empty "c")).addFile "x.y" |>.addFile "x_y").expose false)),
      ∀ n ∈ v.way, Plain n := by decide
  exact ⟨_, rfl, built, forall_names_iff.mp plain,
    describe_of_plain_names built (forall_names_iff.mp plain)⟩

end TypedDecl.Directory
