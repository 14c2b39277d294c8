import Mathlib.Logic.Relation
import TypedDecl.Proofs.Scanning

namespace TypedDecl.Directory

/-- One directory is in another. -/
def Child (d c : Directory) : Prop := c ∈ d.children

/-- A directory that was empty once. Files, and directories that were built up before, are added to
it or where a way leads, and what is exposed changes. -/
inductive Built : Directory → Prop
  | empty (name : String) : Built (empty name)
  | file {d : Directory} (h : Built d) (way : List String) (file : String) :
      Built (updateAt (·.addFile file) way d)
  | child {d c : Directory} (h : Built d) (way : List String) (hc : Built c) :
      Built (updateAt (·.addChild c) way d)
  | expose {d : Directory} (h : Built d) (way : List String) (exposed : Bool) :
      Built (updateAt (·.expose exposed) way d)

/-- In each directory the names of the files are different, and those of the subdirectories are. -/
inductive Unrepeated : Directory → Prop
  | mk {name : String} {files : List String} {children : List Directory} {exposed : Bool}
      (files_nodup : files.Nodup) (names_nodup : (children.map Directory.name).Nodup)
      (below : ∀ c ∈ children, Unrepeated c) : Unrepeated (mk name files children exposed)

/-- What holds of a directory if it holds of those in it holds of all. -/
@[elab_as_elim]
theorem induction_children {motive : Directory → Prop}
    (step : ∀ d, (∀ c, Child d c → motive c) → motive d) (d : Directory) : motive d :=
  step d fun c _ => induction_children step c
termination_by sizeOf d
decreasing_by
  rename_i mem
  obtain ⟨name, files, children, exposed⟩ := d
  have smaller := List.sizeOf_lt_of_mem (show c ∈ children from mem)
  simp only [mk.sizeOf_spec]
  omega

section Additions

variable {d c : Directory}

theorem name_updateAt {f : Directory → Directory} (keeps : ∀ d, (f d).name = d.name)
    (way : List String) (d : Directory) : (updateAt f way d).name = d.name := by
  cases way with
  | nil => exact keeps d
  | cons n way => rfl

theorem map_name_updateChild {f : Directory → Directory} (keeps : ∀ d, (f d).name = d.name)
    (n : String) (ds : List Directory) : (updateChild n f ds).map name = ds.map name := by
  induction ds with
  | nil => rfl
  | cons d ds ih =>
    rw [updateChild]
    split_ifs
    · rw [List.map_cons, List.map_cons, keeps]
    · rw [List.map_cons, List.map_cons, ih]

theorem mem_updateChild {f : Directory → Directory} {n : String} {ds : List Directory}
    (h : c ∈ updateChild n f ds) : c ∈ ds ∨ ∃ d ∈ ds, c = f d := by
  induction ds with
  | nil => cases h
  | cons d ds ih =>
    rw [updateChild] at h
    split_ifs at h
    · rcases List.mem_cons.mp h with rfl | mem
      · exact .inr ⟨d, List.mem_cons_self, rfl⟩
      · exact .inl (List.mem_cons_of_mem d mem)
    · rcases List.mem_cons.mp h with rfl | mem
      · exact .inl List.mem_cons_self
      · rcases ih mem with old | ⟨d', old, changed⟩
        · exact .inl (List.mem_cons_of_mem d old)
        · exact .inr ⟨d', List.mem_cons_of_mem d old, changed⟩

namespace Unrepeated

theorem child (h : Unrepeated d) (hc : Child d c) : Unrepeated c := by
  obtain ⟨-, -, below⟩ := h
  exact below c hc

theorem addFile (h : Unrepeated d) (file : String) : Unrepeated (d.addFile file) := by
  by_cases known : file ∈ d.files
  · rw [addFile_of_mem known]
    exact h
  · rw [addFile_of_notMem known]
    obtain ⟨once, names, below⟩ := h
    rw [← List.concat_eq_append]
    exact .mk (once.concat known) names below

theorem addChild (h : Unrepeated d) (hc : Unrepeated c) : Unrepeated (d.addChild c) := by
  by_cases known : c.name ∈ d.children.map name
  · rw [addChild_of_mem known]
    exact h
  · rw [addChild_of_notMem known]
    obtain ⟨once, names, below⟩ := h
    refine .mk once ?_ (List.forall_mem_append.mpr ⟨below, List.forall_mem_singleton.mpr hc⟩)
    rw [List.map_append, List.map_singleton, ← List.concat_eq_append]
    exact names.concat known

theorem expose (h : Unrepeated d) (exposed : Bool) : Unrepeated (d.expose exposed) := by
  obtain ⟨once, names, below⟩ := h
  exact .mk once names below

/-- A change that keeps names can be made anywhere below. -/
theorem updateAt {f : Directory → Directory} (keeps : ∀ d, (f d).name = d.name)
    (step : ∀ d, Unrepeated d → Unrepeated (f d)) (way : List String) (h : Unrepeated d) :
    Unrepeated (updateAt f way d) := by
  induction way generalizing d with
  | nil => exact step d h
  | cons n way ih =>
    obtain ⟨once, names, below⟩ := h
    have same := name_updateAt keeps way
    refine .mk once (by rw [map_name_updateChild same]; exact names) fun c hc => ?_
    rcases mem_updateChild hc with old | ⟨d, old, rfl⟩
    · exact below c old
    · exact ih (below d old)

/-- No two ways through the directories are the same. -/
theorem nodup_ways (h : Unrepeated d) : (d.visits.map Visit.way).Nodup := by
  induction h with
  | mk _ names _ below => exact Directory.nodup_ways names below

end Unrepeated

/-- Each step of building keeps the names in every directory different. -/
theorem Built.unrepeated (h : Built d) : Unrepeated d := by
  induction h with
  | empty name => exact .mk List.nodup_nil List.nodup_nil (by simp)
  | file _ way file ih => exact ih.updateAt (name_addFile · file) (fun _ h => h.addFile file) way
  | @child _ c _ way _ ih new =>
    exact ih.updateAt (name_addChild · c) (fun _ h => h.addChild new) way
  | expose _ way exposed ih =>
    exact ih.updateAt (f := fun d => d.expose exposed) (fun _ => rfl)
      (fun _ h => h.expose exposed) way

end Additions

section Reached

open Relation (ReflTransGen TransGen)

variable {root : Directory}

theorem mem_visits {v : Visit} : v ∈ root.visits ↔
    v = ⟨[], root.files, root.exposed⟩ ∨
      ∃ c, Child root c ∧ ∃ u ∈ c.visits, u.below c.name = v := by
  obtain ⟨name, files, children, exposed⟩ := root
  rw [visits, List.mem_cons, mem_visitsBelow]
  rfl

/-- The walk visits the directories that are reached from the root. -/
theorem forall_visits_iff {p : List String → Bool → Prop} :
    (∀ v ∈ root.visits, p v.files v.exposed) ↔
      ∀ d, ReflTransGen Child root d → p d.files d.exposed := by
  induction root using induction_children with
  | step root ih =>
    constructor
    · intro visited d reached
      rcases ReflTransGen.cases_head_iff.mp reached with rfl | ⟨c, hc, below⟩
      · exact visited _ (mem_visits.mpr (.inl rfl))
      · refine (ih c hc).mp (fun u hu => ?_) d below
        exact visited (u.below c.name) (mem_visits.mpr (.inr ⟨c, hc, u, hu, rfl⟩))
    · intro reached v hv
      rcases mem_visits.mp hv with rfl | ⟨c, hc, u, hu, rfl⟩
      · exact reached root .refl
      · exact (ih c hc).mpr (fun d below => reached d (below.head hc)) u hu

/-- The names on the ways of the walk are those of the directories below the root. -/
theorem forall_names_iff {p : String → Prop} :
    (∀ v ∈ root.visits, ∀ n ∈ v.way, p n) ↔ ∀ d, TransGen Child root d → p d.name := by
  induction root using induction_children with
  | step root ih =>
    constructor
    · intro named d below
      have inside {c : Directory} (hc : Child root c) : p c.name ∧
          ∀ v ∈ c.visits, ∀ n ∈ v.way, p n := by
        have each : ∀ v ∈ c.visits, ∀ n ∈ c.name :: v.way, p n := fun v hv =>
          named _ (mem_visits.mpr (.inr ⟨c, hc, v, hv, rfl⟩))
        refine ⟨?_, fun v hv n hn => each v hv n (List.mem_cons_of_mem _ hn)⟩
        exact each _ (mem_visits.mpr (.inl rfl)) _ List.mem_cons_self
      rcases TransGen.head'_iff.mp below with ⟨c, hc, further⟩
      rcases Relation.reflTransGen_iff_eq_or_transGen.mp further with rfl | further
      · exact (inside hc).1
      · exact (ih c hc).mp (inside hc).2 d further
    · intro named v hv
      rcases mem_visits.mp hv with rfl | ⟨c, hc, u, hu, rfl⟩
      · simp
      · refine List.forall_mem_cons.mpr ⟨named c (.single hc), ?_⟩
        exact (ih c hc).mpr (fun d below => named d (below.head hc)) u hu

end Reached

end TypedDecl.Directory
