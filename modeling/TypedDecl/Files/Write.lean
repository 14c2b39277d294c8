import TypedDecl.Files.Lookup

namespace TypedDecl.Files

/-- What a write meets besides the files: the names that are tried for its draft in a directory, and
where the system refuses a step for a reason of its own, such as a full disk. Directories can be
refused when so many parts of the way are there. -/
structure Attempt where
  names : Node → List String
  making : Option (Nat × Fault)
  creating : Option Fault
  filling : Option Fault
  moving : Option Fault

namespace Node

/-- Makes the directory that parts lead to from a place. -/
def makeDirectory (top : Node) (base parts : List String) : Except Fault Node :=
  match parts.getLast? with
  | none => .error .alreadyThere
  | some name =>
    (top.walk linkLimit base parts.dropLast).bind fun place =>
      if !(top.at? place).any isDirectory then .error .notDirectory
      else if Path.isDots name then .error .alreadyThere
      else if nameLimit < name.utf8ByteSize then .error .nameTooLong
      else if (top.at? (place ++ [name])).isSome then .error .alreadyThere
      else .ok (putAt empty (place ++ [name]) top)

def leadsToDirectory (top : Node) (base parts : List String) : Bool :=
  match top.walk linkLimit base parts with
  | .ok place => (top.at? place).any isDirectory
  | .error _ => false

/-- A directory that could not be made may be there already. -/
def unlessThere (top : Node) (base parts : List String) (fault : Fault) :
    Node × Except Fault Unit :=
  (top, if top.leadsToDirectory base parts then .ok () else .error fault)

/-- Makes a directory and those it is in. The parts come last one first. -/
def makeDirectories (top : Node) (base : List String) : List String → Node × Except Fault Unit
  | [] => (top, .ok ())
  | name :: above =>
    let parts := (name :: above).reverse
    match top.makeDirectory base parts with
    | .ok new => (new, .ok ())
    | .error .missing =>
      match makeDirectories top base above with
      | (top, .error fault) => (top, .error fault)
      | (top, .ok ()) =>
        match top.makeDirectory base parts with
        | .ok new => (new, .ok ())
        | .error fault => top.unlessThere base parts fault
    | .error fault => top.unlessThere base parts fault

variable [Start]

def placeFor (top : Node) (path : String) : Except Fault (List String) :=
  match pathFault? path with
  | some fault => .error fault
  | none =>
    let names := (Path.parts path).reverse
    let slash := path.toList.getLast? = some '/'
    match if slash then names.drop 1 else names with
    | [] => .error .busy
    | name :: above =>
      (top.walk linkLimit (Start.of path) above.reverse).bind fun place =>
        if !(top.at? place).any isDirectory then .error .notDirectory
        else if Path.isDots name then .error .busy
        else if nameLimit < name.utf8ByteSize then .error .nameTooLong
        else if slash then .error .notDirectory
        else if (top.at? (place ++ [name])).any isDirectory then .error .isDirectory
        else .ok (place ++ [name])

def parentParts (path : String) : List String :=
  match Path.parentComponents path with
  | [] => ["."]
  | parts => parts

/-- Makes the directories that parts lead through, unless one of them can have no such name. -/
def makeWay (top : Node) (base parts : List String) : Node × Except Fault Unit :=
  if parts.any (·.toList.contains '\x00') then (top, .error .nullInName)
  else top.makeDirectories base parts.reverse

/-- The files with the directories that a path is in. -/
def makeParents (top : Node) (path : String) : Node × Except Fault Unit :=
  top.makeWay (Start.of path) (parentParts path)

/-- The directory of a draft, and a name that is free in it. -/
def draftFor (a : Attempt) (top : Node) (path : String) : Except Fault (List String × String) :=
  match a.creating with
  | some fault => .error fault
  | none =>
    (top.walk linkLimit (Start.of path) (parentParts path)).bind fun dir =>
      match top.at? dir with
      | some (directory entries) =>
        match (a.names (directory entries)).find? fun n => (entries.lookup n).isNone with
        | some name => .ok (dir, name)
        | none => .error .alreadyThere
      | _ => .error .notDirectory

def deliver (a : Attempt) (top : Node) (dir : List String) (name path text : String) :
    Node × Except Fault Unit :=
  let created := putAt (file ByteArray.empty) (dir ++ [name]) top
  match a.filling with
  | some fault => (created.eraseEntry name dir, .error fault)
  | none =>
    let filled := putAt (file text.toUTF8) (dir ++ [name]) created
    match a.moving with
    | some fault => (filled.eraseEntry name dir, .error fault)
    | none =>
      match filled.placeFor path with
      | .error fault => (filled.eraseEntry name dir, .error fault)
      | .ok place => (putAt (file text.toUTF8) place (filled.eraseEntry name dir), .ok ())

def writeVia (a : Attempt) (top : Node) (path text : String) : Node × Except Fault Unit :=
  match a.making with
  | some (count, fault) =>
    ((top.makeWay (Start.of path) ((parentParts path).take count)).1, .error fault)
  | none =>
    match top.makeParents path with
    | (made, .error fault) => (made, .error fault)
    | (made, .ok ()) =>
      match made.draftFor a path with
      | .error fault => (made, .error fault)
      | .ok (dir, name) => made.deliver a dir name path text

/-- Names for a draft, one more than there are names in the directory. -/
def draftNames : Node → List String
  | directory entries =>
    (List.range (entries.length + 1)).map fun n => ".tmp" ++ String.ofList (List.replicate n '0')
  | _ => []

end Node

def Attempt.unhindered : Attempt := ⟨Node.draftNames, none, none, none, none⟩

def Node.write [Start] (top : Node) (path text : String) : Node × Except Fault Unit :=
  top.writeVia .unhindered path text

end TypedDecl.Files
