import TypedDecl.Resource.Model

namespace TypedDecl.Directory

/-- A directory on a walk: the names that lead to it, its files, and whether these are exposed. -/
structure Visit where
  way : List String
  files : List String
  exposed : Bool
  deriving DecidableEq, Repr

namespace Visit

/-- The same directory on a walk that begins one directory higher. -/
def below (name : String) (v : Visit) : Visit := { v with way := name :: v.way }

/-- The names on the way with a slash before each. -/
def path (v : Visit) : String := String.join (v.way.map ("/" ++ ·))

def declaredName (v : Visit) : String :=
  "Root" ++ String.join (v.way.map fun n => "_" ++ Name.sanitize n)

/-- The constant for a file of the directory. -/
def constant (v : Visit) (file : String) : Member :=
  ⟨Name.sanitize file, "&'static str", Text.Quoted.quote (v.path ++ "/" ++ file)⟩

def declaration (v : Visit) : Declaration :=
  ⟨v.declaredName, .directory (if v.way = [] then "/" else v.path),
    if v.exposed then v.files.map v.constant else []⟩

end Visit

mutual

def visits : Directory → List Visit
  | mk _ files children exposed => ⟨[], files, exposed⟩ :: visitsBelow children

def visitsBelow : List Directory → List Visit
  | [] => []
  | d :: ds => d.visits.map (Visit.below d.name) ++ visitsBelow ds

end

mutual

/-- The directory with all of its files, and all below it, kept from becoming members. -/
def concealed : Directory → Directory
  | mk name files children _ => mk name files (concealedAll children) false

def concealedAll : List Directory → List Directory
  | [] => []
  | d :: ds => d.concealed :: concealedAll ds

end

namespace Visit

def conceal (v : Visit) : Visit := { v with exposed := false }

/-- The declaration when the way begins at a directory that has a name and a path already. -/
def declarationFrom (declared path : String) (v : Visit) : Declaration :=
  Directory.declaration (declared ++ String.join (v.way.map fun n => "_" ++ Name.sanitize n))
    (path ++ v.path) v.files v.exposed

theorem declarationFrom_below (declared path name : String) (v : Visit) :
    (v.below name).declarationFrom declared path =
      v.declarationFrom (declared ++ "_" ++ Name.sanitize name) (path ++ "/" ++ name) := by
  simp only [declarationFrom, below, Visit.path, List.map_cons, String.join_cons,
    String.append_assoc]

/-- Only at the root is the path empty. -/
theorem isEmpty_path (v : Visit) : v.path.isEmpty = decide (v.way = []) := by
  rcases v with ⟨_ | ⟨name, way⟩, files, exposed⟩
  · rfl
  · have slash : "/" ++ name ≠ "" := by simp
    simp [path, String.join_cons]

theorem declarationFrom_root (v : Visit) : v.declarationFrom rootName "" = v.declaration := by
  have shown : shownPath v.path = if v.way = [] then "/" else v.path := by
    rw [shownPath, isEmpty_path]
    simp only [decide_eq_true_eq]
  rw [declarationFrom, declaration, Directory.declaration, String.empty_append, shown]
  rfl

end Visit

mutual

/-- From any directory on, the name and the path that were built up so far stand before the rest. -/
theorem preOrder_treeFrom (declared path : String) : ∀ d : Directory,
    (treeFrom declared path d).preOrder = d.visits.map (Visit.declarationFrom declared path)
  | mk name files children exposed => by
    have here : Visit.declarationFrom declared path ⟨[], files, exposed⟩ =
        Directory.declaration declared path files exposed := by
      simp [Visit.declarationFrom, Visit.path]
    rw [treeFrom, DeclarationTree.preOrder, visits, List.map_cons, here,
      preOrder_treesFrom declared path children]

theorem preOrder_treesFrom (declared path : String) : ∀ ds : List Directory,
    DeclarationTree.listPreOrder (treesFrom declared path ds) =
      (visitsBelow ds).map (Visit.declarationFrom declared path)
  | [] => rfl
  | d :: ds => by
    have first := preOrder_treeFrom (declared ++ "_" ++ Name.sanitize d.name)
      (path ++ "/" ++ d.name) d
    rw [treesFrom, DeclarationTree.listPreOrder, first, preOrder_treesFrom declared path ds,
      visitsBelow, List.map_append, List.map_map]
    congr 1
    exact List.map_congr_left fun v _ => (Visit.declarationFrom_below declared path d.name v).symm

end

/-- One declaration for each directory, in the order of the walk. -/
theorem preOrder_tree (root : Directory) :
    root.tree.preOrder = root.visits.map Visit.declaration := by
  rw [tree, preOrder_treeFrom]
  exact List.map_congr_left fun v _ => v.declarationFrom_root

theorem name_concealed (d : Directory) : d.concealed.name = d.name := by
  cases d
  rfl

mutual

/-- What is exposed does not change the walk. -/
theorem visits_concealed : ∀ d : Directory, d.concealed.visits = d.visits.map Visit.conceal
  | mk name files children exposed => by
    rw [concealed, visits, visits, List.map_cons, visitsBelow_concealedAll children]
    rfl

theorem visitsBelow_concealedAll : ∀ ds : List Directory,
    visitsBelow (concealedAll ds) = (visitsBelow ds).map Visit.conceal
  | [] => rfl
  | d :: ds => by
    rw [concealedAll, visitsBelow, visitsBelow, List.map_append, visits_concealed d,
      visitsBelow_concealedAll ds, name_concealed, List.map_map, List.map_map]
    congr 1

end

/-- The declarations are those of the walk. The name of the root plays no part in them, and whether
the files of a directory are exposed shows in its own declaration alone, for the names that lead to
the directories and their files stay what they are. -/
theorem preOrder_tree_eq_walk (root : Directory) (name : String) :
    root.tree.preOrder = root.visits.map Visit.declaration ∧
      (mk name root.files root.children root.exposed).tree.preOrder = root.tree.preOrder ∧
      root.concealed.visits = root.visits.map Visit.conceal := by
  refine ⟨root.preOrder_tree, ?_, root.visits_concealed⟩
  cases root
  rw [preOrder_tree, preOrder_tree]
  rfl

end TypedDecl.Directory
