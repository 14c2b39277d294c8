import TypedDecl.Files.Lookup
import TypedDecl.Resource.Directory

namespace TypedDecl

inductive Entry
  | file
  | link (toDirectory : Bool)
  | directory (entries : List (String × Entry))
  /-- A directory that it does not list. -/
  | closed (fault : Files.Fault)

/-- The path of a directory that cannot be listed, and why. -/
abbrev Unlisted := String × Files.Fault

/-- What is found under a name: a file, or a directory unless it cannot be listed. -/
abbrev Found := String × Except Unlisted (Option Directory)

namespace Directory

open Files (Path.join)

/-- Adds a file or, if it has one, a subdirectory. -/
def addFound (d : Directory) (found : String × Option Directory) : Directory :=
  match found.2 with
  | some child => d.addChild child
  | none => d.addFile found.1

def told (found : Found) : Except Unlisted (String × Option Directory) :=
  found.2.map (found.1, ·)

/-- A directory from what was found in it, in the order of the names. -/
def assemble (name : String) (found : List Found) : Except Unlisted Directory :=
  ((found.mergeSort fun a b => decide (a.1 ≤ b.1)).mapM told).map fun found =>
    found.foldl addFound (empty name)

mutual

/-- The resource that an entry is, if it is one: a file or a directory. A directory is known by its
path. -/
def foundEntry (path name : String) : Entry → Option Found
  | .file => some (name, .ok none)
  | .link toDirectory => if toDirectory then none else some (name, .ok none)
  | .directory entries => some (name, (assemble name (foundEntries path entries)).map some)
  | .closed fault => some (name, .error (path, fault))

def foundEntries (path : String) : List (String × Entry) → List Found
  | [] => []
  | (name, e) :: es => (foundEntry (Path.join path name) name e).toList ++ foundEntries path es

end

/-- The root directory from the entries in it. -/
def ofEntries (path : String) (entries : List (String × Entry)) : Except Unlisted Directory :=
  assemble "" (foundEntries path entries)

end Directory

/-- How a system lists directories, which it is asked for by their paths: in an order of its own,
and not at all where it refuses. -/
structure Listing where
  order : String → List (String × Entry) → List (String × Entry)
  perm : ∀ path es, (order path es).Perm es
  refusal : String → Option Files.Fault

namespace Listing

/-- Directories are listed as they are. Only what is no path is refused, such as one that is too
long. -/
def plain : Listing := ⟨fun _ es => es, fun _ _ => .refl _, Files.Node.pathFault?⟩

end Listing

namespace Files.Node

variable [Start]

mutual

/-- What is told of a node that has a path. -/
def entry (l : Listing) (top : Node) (path : String) : Node → Entry
  | .file _ => .file
  | .link _ => .link (top.isDirectoryAt path)
  | .directory entries =>
    match l.refusal path with
    | some fault => .closed fault
    | none => .directory (l.order path (entriesAt l top path entries))

def entriesAt (l : Listing) (top : Node) (path : String) :
    List (String × Node) → List (String × Entry)
  | [] => []
  | (name, n) :: es => (name, entry l top (Path.join path name) n) :: entriesAt l top path es

end

def listVia (l : Listing) (top : Node) (path : String) : Except Fault (List (String × Entry)) :=
  (top.resolve path).bind fun place =>
    match top.at? place with
    | some (.directory entries) =>
      match l.refusal path with
      | some fault => .error fault
      | none => .ok (l.order path (entriesAt l top path entries))
    | some _ => .error .notDirectory
    | none => .error .missing

def list (top : Node) (path : String) : Except Fault (List (String × Entry)) :=
  top.listVia .plain path

end Files.Node

end TypedDecl
