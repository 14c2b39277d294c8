namespace TypedDecl

inductive Directory
  /-- `exposed` tells whether the files of the directory itself become members. -/
  | mk (name : String) (files : List String) (children : List Directory) (exposed : Bool)
  deriving Inhabited, Repr

namespace Directory

def name : Directory → String
  | mk n _ _ _ => n

def files : Directory → List String
  | mk _ fs _ _ => fs

def children : Directory → List Directory
  | mk _ _ cs _ => cs

def exposed : Directory → Bool
  | mk _ _ _ e => e

def empty (name : String) : Directory := mk name [] [] true

def expose (d : Directory) (exposed : Bool) : Directory := mk d.name d.files d.children exposed

def addFile (d : Directory) (file : String) : Directory :=
  if d.files.contains file then d else mk d.name (d.files ++ [file]) d.children d.exposed

def addChild (d : Directory) (child : Directory) : Directory :=
  if d.children.any (·.name = child.name) then d
  else mk d.name d.files (d.children ++ [child]) d.exposed

def isEmpty (d : Directory) : Bool := d.files.isEmpty && d.children.isEmpty

section Additions

variable {d c : Directory} {file : String}

theorem addFile_of_mem (h : file ∈ d.files) : d.addFile file = d :=
  if_pos (List.contains_iff_mem.mpr h)

theorem addFile_of_notMem (h : file ∉ d.files) :
    d.addFile file = mk d.name (d.files ++ [file]) d.children d.exposed :=
  if_neg fun known => h (List.contains_iff_mem.mp known)

theorem any_name_iff : d.children.any (·.name = c.name) = true ↔ c.name ∈ d.children.map name := by
  simp

theorem addChild_of_mem (h : c.name ∈ d.children.map name) : d.addChild c = d :=
  if_pos (any_name_iff.mpr h)

theorem addChild_of_notMem (h : c.name ∉ d.children.map name) :
    d.addChild c = mk d.name d.files (d.children ++ [c]) d.exposed :=
  if_neg fun known => h (any_name_iff.mp known)

theorem name_addFile (d : Directory) (file : String) : (d.addFile file).name = d.name := by
  rw [addFile]
  split <;> rfl

theorem name_addChild (d c : Directory) : (d.addChild c).name = d.name := by
  rw [addChild]
  split <;> rfl

theorem files_addChild (d c : Directory) : (d.addChild c).files = d.files := by
  rw [addChild]
  split <;> rfl

end Additions

/-- Changes the first child of a name. -/
def updateChild (n : String) (f : Directory → Directory) : List Directory → List Directory
  | [] => []
  | c :: cs => if c.name = n then f c :: cs else c :: updateChild n f cs

/-- Changes the directory that the names lead to. -/
def updateAt (f : Directory → Directory) : List String → Directory → Directory
  | [], d => f d
  | n :: ns, d => mk d.name d.files (updateChild n (updateAt f ns) d.children) d.exposed

def at? : List String → Directory → Option Directory
  | [], d => some d
  | n :: ns, d => (d.children.find? (·.name = n)).bind (at? ns)

end Directory

end TypedDecl
