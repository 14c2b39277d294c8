import TypedDecl.Proofs.DirectoryPlaces
import TypedDecl.Proofs.FirstOccurrences

namespace TypedDecl.Directory

open Relation (ReflTransGen)

/-- A change of one directory. A subdirectory that is added was made by changes of its own, at it or
wherever a way from it leads. -/
inductive Change
  | file (file : String)
  | child (name : String) (steps : List (List String × Change))
  | expose (exposed : Bool)

/-- A change, and the way to the directory that changes. -/
abbrev Step := List String × Change

mutual

def Change.apply : Change → Directory → Directory
  | .file file, d => d.addFile file
  | .child name steps, d => d.addChild (run steps (empty name))
  | .expose exposed, d => d.expose exposed

/-- The changes one after the other. -/
def run : List Step → Directory → Directory
  | [], d => d
  | (way, c) :: steps, d => run steps (d.updateAt c.apply way)

end

/-- A directory that was empty before the changes. -/
def build (name : String) (steps : List Step) : Directory := run steps (empty name)

section Runs

variable {d : Directory}

theorem run_append (first later : List Step) (d : Directory) :
    run (first ++ later) d = run later (run first d) := by
  induction first generalizing d with
  | nil => rfl
  | cons s first ih =>
    simp only [List.cons_append, run]
    exact ih _

theorem build_append_singleton (name : String) (steps : List Step) (s : Step) :
    build name (steps ++ [s]) = (build name steps).updateAt s.2.apply s.1 := by
  rw [build, run_append]
  simp only [run]
  rfl

theorem name_apply (c : Change) (d : Directory) : (c.apply d).name = d.name := by
  cases c with
  | file file => exact name_addFile d file
  | child name steps => exact name_addChild d _
  | expose exposed => rfl

theorem name_run (steps : List Step) (d : Directory) : (run steps d).name = d.name := by
  induction steps generalizing d with
  | nil => rfl
  | cons s steps ih =>
    simp only [run]
    rw [ih, name_updateAt (name_apply s.2)]

theorem name_build (name : String) (steps : List Step) : (build name steps).name = name :=
  name_run steps (empty name)

mutual

theorem built_change (way : List String) {d : Directory} (h : Built d) :
    ∀ c : Change, Built (d.updateAt c.apply way)
  | .file file => h.file way file
  | .child name steps => h.child way (built_run (.empty name) steps)
  | .expose exposed => h.expose way exposed

theorem built_run {d : Directory} (h : Built d) : ∀ steps : List Step, Built (run steps d)
  | [] => h
  | (way, c) :: steps => built_run (built_change way h c) steps

end

theorem built_build (name : String) (steps : List Step) : Built (build name steps) :=
  built_run (.empty name) steps

end Runs

section History

variable {n name : String} {steps : List Step} {way : List String} {d : Directory}

namespace Step

def file? : Step → Option String
  | ([], .file file) => some file
  | _ => none

def child? : Step → Option String
  | ([], .child name _) => some name
  | _ => none

def exposed? : Step → Option Bool
  | ([], .expose exposed) => some exposed
  | _ => none

/-- A step below the child of a name, as a step of that child. -/
def below? (n : String) : Step → Option Step
  | (m :: way, c) => if m = n then some (way, c) else none
  | ([], _) => none

end Step

/-- The names of the files that were added to the directory itself. -/
def filesAdded (steps : List Step) : List String := steps.filterMap Step.file?

/-- The names of the subdirectories that were added to the directory itself. -/
def childrenAdded (steps : List Step) : List String := steps.filterMap Step.child?

/-- Whether the files of the directory itself are exposed in the end. -/
def exposedLast (steps : List Step) : Bool := (steps.filterMap Step.exposed?).getLastD true

/-- The steps that made the child of a name: those it had behind it when it was added first, and
those that took place below it later. -/
def stepsIn (n : String) : List Step → List Step
  | [] => []
  | ([], .child name first) :: later =>
    if name = n then first ++ later.filterMap (Step.below? n) else stepsIn n later
  | _ :: later => stepsIn n later

/-- The steps that made the directory at the end of a way. -/
def stepsAt : List String → List Step → List Step
  | [], steps => steps
  | n :: way, steps => stepsAt way (stepsIn n steps)

theorem filterMap_append_singleton {α : Type} (f : Step → Option α) (steps : List Step) (s : Step) :
    (steps ++ [s]).filterMap f = steps.filterMap f ++ (f s).toList := by
  rw [List.filterMap_append]
  cases given : f s <;> simp [given]

theorem filesAdded_append_singleton (steps : List Step) (s : Step) :
    filesAdded (steps ++ [s]) = filesAdded steps ++ s.file?.toList :=
  filterMap_append_singleton Step.file? steps s

theorem childrenAdded_append_singleton (steps : List Step) (s : Step) :
    childrenAdded (steps ++ [s]) = childrenAdded steps ++ s.child?.toList :=
  filterMap_append_singleton Step.child? steps s

theorem exposedLast_append_singleton (steps : List Step) (s : Step) :
    exposedLast (steps ++ [s]) = s.exposed?.getD (exposedLast steps) := by
  rw [exposedLast, filterMap_append_singleton]
  cases s.exposed? <;> simp [exposedLast]

/-- A further step is one of the child if that is there already, or else makes it. -/
theorem stepsIn_append_singleton (n : String) (steps : List Step) (s : Step) :
    stepsIn n (steps ++ [s]) = if n ∈ childrenAdded steps then
      stepsIn n steps ++ (s.below? n).toList else stepsIn n [s] := by
  induction steps with
  | nil =>
    have none : n ∉ childrenAdded [] := List.not_mem_nil
    rw [if_neg none, List.nil_append]
  | cons t later ih =>
    obtain ⟨_ | ⟨m, way⟩, c⟩ := t
    · cases c with
      | file file => exact ih
      | expose exposed => exact ih
      | child name first =>
        have added : childrenAdded (([], .child name first) :: later) =
          name :: childrenAdded later := rfl
        rw [List.cons_append, stepsIn, stepsIn, added]
        by_cases same : name = n
        · rw [if_pos same, if_pos same, if_pos (by simp [same]), filterMap_append_singleton,
            List.append_assoc]
        · rw [if_neg same, if_neg same, ih]
          simp [Ne.symm same]
    · exact ih

/-- The subdirectories in the order in which they came first, each as its own steps make it. -/
def subdirectories (steps : List Step) : List Directory :=
  (childrenAdded steps).eraseDups.map fun n => build n (stepsIn n steps)

theorem names_subdirectories (steps : List Step) :
    (subdirectories steps).map Directory.name = (childrenAdded steps).eraseDups := by
  rw [subdirectories, List.map_map]
  have own : Directory.name ∘ (fun n => build n (stepsIn n steps)) = id :=
    funext fun n => name_build n (stepsIn n steps)
  rw [own, List.map_id]

/-- A step that neither adds a subdirectory nor takes place below one leaves them as they are. -/
theorem subdirectories_of_apart {s : Step} (adds : s.child? = none)
    (apart : ∀ n, s.below? n = none) : subdirectories (steps ++ [s]) = subdirectories steps := by
  have added : childrenAdded (steps ++ [s]) = childrenAdded steps := by
    rw [childrenAdded_append_singleton, adds, Option.toList_none, List.append_nil]
  rw [subdirectories, subdirectories, added]
  apply List.map_congr_left
  intro n hn
  rw [stepsIn_append_singleton, if_pos (List.mem_eraseDups.mp hn), apart, Option.toList_none,
    List.append_nil]

theorem subdirectories_child (steps : List Step) (name : String) (first : List Step) :
    subdirectories (steps ++ [([], .child name first)]) =
      if name ∈ childrenAdded steps then subdirectories steps
      else subdirectories steps ++ [build name first] := by
  have added : childrenAdded (steps ++ [([], .child name first)]) =
      childrenAdded steps ++ [name] :=
    childrenAdded_append_singleton steps _
  have old : ∀ n ∈ (childrenAdded steps).eraseDups,
      build n (stepsIn n (steps ++ [([], .child name first)])) = build n (stepsIn n steps) := by
    intro n hn
    rw [stepsIn_append_singleton, if_pos (List.mem_eraseDups.mp hn)]
    exact congrArg (build n) (List.append_nil _)
  rw [subdirectories, added, eraseDups_append_singleton]
  split_ifs with known
  · exact List.map_congr_left old
  · have new : stepsIn name (steps ++ [([], .child name first)]) = first := by
      rw [stepsIn_append_singleton, if_neg known, stepsIn, if_pos rfl, List.filterMap_nil,
        List.append_nil]
    rw [List.map_append, List.map_congr_left old, List.map_singleton, new, subdirectories]

theorem subdirectories_below (steps : List Step) (m : String) (way : List String)
    (c : Change) : subdirectories (steps ++ [(m :: way, c)]) =
      updateChild m (updateAt c.apply way) (subdirectories steps) := by
  have added : childrenAdded (steps ++ [(m :: way, c)]) = childrenAdded steps ++ [] :=
    childrenAdded_append_singleton steps _
  rw [subdirectories, subdirectories, added, List.append_nil,
    updateChild_map (fun n => name_build n _) m (nodup_eraseDups _)]
  apply List.map_congr_left
  intro n hn
  rw [stepsIn_append_singleton, if_pos (List.mem_eraseDups.mp hn)]
  by_cases same : m = n
  · subst same
    have step : (Step.below? m (m :: way, c)).toList = [(way, c)] := by
      simp [Step.below?]
    rw [if_pos rfl, step]
    exact build_append_singleton m (stepsIn m steps) (way, c)
  · rw [if_neg (Ne.symm same)]
    simp [Step.below?, same]

/-- What a directory is in the end, from the steps that made it. -/
theorem build_eq (name : String) (steps : List Step) :
    build name steps = mk name (filesAdded steps).eraseDups (subdirectories steps)
      (exposedLast steps) := by
  -- Steps are taken from the end: the last one meets a directory that the others have made.
  induction steps using List.reverseRecOn with
  | nil => rfl
  | append_singleton steps s ih =>
    rw [build_append_singleton, ih, filesAdded_append_singleton, exposedLast_append_singleton]
    obtain ⟨_ | ⟨m, way⟩, c⟩ := s
    · cases c with
      | file file =>
        change _ = mk name (filesAdded steps ++ [file]).eraseDups _ (exposedLast steps)
        rw [eraseDups_append_singleton, subdirectories_of_apart rfl fun _ => rfl]
        split_ifs with known
        · exact addFile_of_mem (List.mem_eraseDups.mpr known)
        · exact addFile_of_notMem (mt List.mem_eraseDups.mp known)
      | child m first =>
        change _ = mk name (filesAdded steps ++ []).eraseDups _ (exposedLast steps)
        have there : (build m first).name ∈ (subdirectories steps).map Directory.name ↔
            m ∈ childrenAdded steps := by
          rw [name_build, names_subdirectories, List.mem_eraseDups]
        rw [List.append_nil, subdirectories_child]
        split_ifs with known
        · exact addChild_of_mem (there.mpr known)
        · exact addChild_of_notMem (mt there.mp known)
      | expose exposed =>
        change _ = mk name (filesAdded steps ++ []).eraseDups _ exposed
        rw [List.append_nil, subdirectories_of_apart rfl fun _ => rfl]
        rfl
    · change _ = mk name (filesAdded steps ++ []).eraseDups _ (exposedLast steps)
      rw [List.append_nil, subdirectories_below]
      rfl

/-- A directory at the end of a way is what its own steps make of it. -/
theorem eq_build_of_at? (led : (build name steps).at? way = some d) :
    d = build d.name (stepsAt way steps) := by
  induction way generalizing name steps with
  | nil =>
    obtain rfl := Option.some.inj led
    rw [name_build, stepsAt]
  | cons n way ih =>
    obtain ⟨c, found, reached⟩ := at?_cons_eq_some.mp led
    have own : c.name = n := by simpa using List.find?_some found
    have below : c ∈ subdirectories steps := by
      have mem := List.mem_of_find?_eq_some found
      rwa [build_eq] at mem
    obtain ⟨m, -, rfl⟩ := List.mem_map.mp below
    obtain rfl : m = n := by rw [← own, name_build]
    exact ih reached

theorem build_of_same {c : Change} (led : (build name steps).at? way = some d)
    (same : c.apply d = d) : build name (steps ++ [(way, c)]) = build name steps := by
  rw [build_append_singleton]
  apply updateAt_eq_self
  intro x found
  obtain rfl : d = x := Option.some.inj (led.symm.trans found)
  exact same

theorem replaced_build (led : (build name steps).at? way = some d) (c : Change) :
    Replaced d (c.apply d) way (build name steps) (build name (steps ++ [(way, c)])) := by
  rw [build_append_singleton]
  exact replaced_updateAt led

/-- A file and a subdirectory can be added to one directory in either order. -/
theorem build_swap (name : String) (steps : List Step) (way : List String) (file child : String)
    (first : List Step) :
    build name (steps ++ [(way, .file file), (way, .child child first)]) =
      build name (steps ++ [(way, .child child first), (way, .file file)]) := by
  have two (s t : Step) : build name (steps ++ [s, t]) =
      ((build name steps).updateAt s.2.apply s.1).updateAt t.2.apply t.1 := by
    rw [List.append_cons, build_append_singleton, build_append_singleton]
  rw [two, two, updateAt_updateAt (name_apply _), updateAt_updateAt (name_apply _)]
  have same : (fun d => Change.apply (.child child first) (Change.apply (.file file) d)) =
      fun d => Change.apply (.file file) (Change.apply (.child child first) d) :=
    funext fun d => (addFile_addChild d (build child first) file).symm
  exact congrArg (updateAt · way (build name steps)) same

theorem files_build (name : String) (steps : List Step) :
    (build name steps).files = (filesAdded steps).eraseDups := by
  rw [build_eq]
  rfl

theorem names_build (name : String) (steps : List Step) :
    (build name steps).children.map Directory.name = (childrenAdded steps).eraseDups := by
  rw [build_eq]
  exact names_subdirectories steps

/-- What the directory at the end of a way owes to the steps so far, and what a further addition to
it does. -/
structure AddsInOrder (name : String) (steps : List Step) (way : List String) (d : Directory) :
    Prop where
  made : d = build d.name (stepsAt way steps)
  files : FirstsOf (filesAdded (stepsAt way steps)) d.files
  children : FirstsOf (childrenAdded (stepsAt way steps)) (d.children.map Directory.name)
  /-- A name that is there changes nothing anywhere, whatever the subdirectory has in it. -/
  known_file : ∀ file ∈ d.files, build name (steps ++ [(way, .file file)]) = build name steps
  known_child : ∀ child ∈ d.children.map Directory.name, ∀ first,
    build name (steps ++ [(way, .child child first)]) = build name steps
  /-- A new name is put behind the others, and all else is the same. -/
  new_file : ∀ file, file ∉ d.files →
    Replaced d (mk d.name (d.files ++ [file]) d.children d.exposed) way (build name steps)
      (build name (steps ++ [(way, .file file)]))
  new_child : ∀ child, child ∉ d.children.map Directory.name → ∀ first,
    Replaced d (mk d.name d.files (d.children ++ [build child first]) d.exposed) way
      (build name steps) (build name (steps ++ [(way, .child child first)]))
  swap : ∀ file child first,
    build name (steps ++ [(way, .file file), (way, .child child first)]) =
      build name (steps ++ [(way, .child child first), (way, .file file)])

/-- Whatever steps made a tree, no names of files or of subdirectories are repeated in any of its
directories, and ways lead to all of them. In each the names stand in the order in which they were
added first; a name that is there already changes nothing in the whole tree, a new one is put behind
the others and changes nothing else, and a file and a subdirectory can be added in either order. A
step whose way leads nowhere does nothing. -/
theorem build_addsInOrder (name : String) (steps : List Step) :
    Unrepeated (build name steps) ∧
    (∀ d, ReflTransGen Child (build name steps) d ↔
      ∃ way, (build name steps).at? way = some d) ∧
    (∀ way d, (build name steps).at? way = some d → AddsInOrder name steps way d) ∧
    ∀ way, (build name steps).at? way = none →
      ∀ c, build name (steps ++ [(way, c)]) = build name steps := by
  have unrepeated := (built_build name steps).unrepeated
  refine ⟨unrepeated, fun d => unrepeated.reached_iff, ?_, ?_⟩
  · intro way d led
    have own := eq_build_of_at? led
    have files : d.files = (filesAdded (stepsAt way steps)).eraseDups := by
      rw [own]
      exact files_build d.name (stepsAt way steps)
    have names : d.children.map Directory.name =
        (childrenAdded (stepsAt way steps)).eraseDups := by
      rw [own]
      exact names_build d.name (stepsAt way steps)
    refine ⟨own, ?_, ?_, ?_, ?_, ?_, ?_, build_swap name steps way⟩
    · rw [files]
      exact firstsOf_eraseDups _
    · rw [names]
      exact firstsOf_eraseDups _
    · intro file known
      exact build_of_same led (addFile_of_mem known)
    · intro child known first
      rw [← name_build child first] at known
      exact build_of_same led (addChild_of_mem known)
    · intro file new
      rw [← addFile_of_notMem new]
      exact replaced_build led (.file file)
    · intro child new first
      rw [← name_build child first] at new
      rw [← addChild_of_notMem new]
      exact replaced_build led (.child child first)
  · intro way lost c
    rw [build_append_singleton]
    apply updateAt_eq_self
    intro x led
    rw [lost] at led
    cases led

/-- A subdirectory that is added again, with another file, after files came into the first one. -/
theorem addsInOrder_of_repeated_names : ∃ (steps : List Step) (d : Directory),
    steps = [([], .child "css" [([], .file "b")]), (["css"], .file "a"),
      ([], .child "css" [([], .file "c")]), (["css"], .file "b")] ∧
    d = mk "css" ["b", "a"] [] true ∧ (build "" steps).at? ["css"] = some d ∧
    Unrepeated (build "" steps) ∧ AddsInOrder "" steps ["css"] d := by
  have led : (build "" [([], .child "css" [([], .file "b")]), (["css"], .file "a"),
      ([], .child "css" [([], .file "c")]), (["css"], .file "b")]).at? ["css"] =
        some (mk "css" ["b", "a"] [] true) := by rfl
  obtain ⟨unrepeated, -, each, -⟩ := build_addsInOrder "" [([], .child "css" [([], .file "b")]),
    (["css"], .file "a"), ([], .child "css" [([], .file "c")]), (["css"], .file "b")]
  exact ⟨_, _, rfl, rfl, led, unrepeated, each _ _ led⟩

end History

end TypedDecl.Directory
