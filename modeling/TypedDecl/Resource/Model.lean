import TypedDecl.Declaration.Distinct
import TypedDecl.Name
import TypedDecl.Resource.Directory
import TypedDecl.Text.Quoted

namespace TypedDecl

inductive DeclarationTree
  | mk (declaration : Declaration) (children : List DeclarationTree)

namespace DeclarationTree

def declaration : DeclarationTree → Declaration
  | mk d _ => d

def children : DeclarationTree → List DeclarationTree
  | mk _ cs => cs

mutual

/-- A directory before its subdirectories, and these in their order. -/
def preOrder : DeclarationTree → List Declaration
  | mk d children => d :: listPreOrder children

def listPreOrder : List DeclarationTree → List Declaration
  | [] => []
  | t :: ts => t.preOrder ++ listPreOrder ts

end

end DeclarationTree

namespace Directory

/-- The name of the declaration of the root, whatever the root is called. -/
def rootName : String := "Root"

def pathType : String := "&'static str"

def constant (path file : String) : Member :=
  ⟨Name.sanitize file, pathType, Text.Quoted.quote (path ++ "/" ++ file)⟩

/-- A directory as it is shown: the path of the root is empty. -/
def shownPath (path : String) : String := if path.isEmpty then "/" else path

def declaration (declared path : String) (files : List String) (exposed : Bool) : Declaration :=
  ⟨declared, .directory (shownPath path), if exposed then files.map (constant path) else []⟩

mutual

/-- The declarations of a directory that has such a name and path. -/
def treeFrom (declared path : String) : Directory → DeclarationTree
  | mk _ files children exposed =>
    .mk (declaration declared path files exposed) (treesFrom declared path children)

def treesFrom (declared path : String) : List Directory → List DeclarationTree
  | [] => []
  | d :: ds =>
    treeFrom (declared ++ "_" ++ Name.sanitize d.name) (path ++ "/" ++ d.name) d ::
      treesFrom declared path ds

end

def tree (root : Directory) : DeclarationTree := treeFrom rootName "" root

/-- The declarations of a directory, which all have different names. -/
def describe (root : Directory) : Except Error (List Declaration) := do
  let ds := root.tree.preOrder
  Declaration.checkDistinct ds
  pure ds

end Directory

end TypedDecl
