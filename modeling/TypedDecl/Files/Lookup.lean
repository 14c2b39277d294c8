import TypedDecl.Files.Fault
import TypedDecl.Files.Node
import TypedDecl.Files.Path

namespace TypedDecl.Files

/-- The place of the directory that a program runs in. -/
class Start where
  place : List String

namespace Start

/-- A program runs at the top of a tree, unless it is told where. -/
instance (priority := low) top : Start := ⟨[]⟩

/-- Where the parts of a path begin. -/
def of [Start] (path : String) : List String := if Path.isAbsolute path then [] else place

end Start

def linkLimit : Nat := 40

def nameLimit : Nat := 255

def pathLimit : Nat := 4096

namespace Node

/-- Goes on from a directory part by part, up to a link, from which `follow` goes on. The answer is
the names that lead to the node without links. -/
def walkParts (top : Node) (follow : List String → List String → Except Fault (List String)) :
    List String → List String → Except Fault (List String)
  | place, [] => .ok place
  | place, part :: rest =>
    if !(top.at? place).any isDirectory then .error .notDirectory
    else if part = "." then walkParts top follow place rest
    else if part = ".." then walkParts top follow place.dropLast rest
    else if nameLimit < part.utf8ByteSize then .error .nameTooLong
    else
      match top.at? (place ++ [part]) with
      | none => .error .missing
      | some (.link target) =>
        follow (if Path.isAbsolute target then [] else place) (Path.parts target ++ rest)
      | some _ => walkParts top follow (place ++ [part]) rest

/-- Goes on from a directory and follows at most so many links. -/
def walk (top : Node) : Nat → List String → List String → Except Fault (List String)
  | 0, place, parts => walkParts top (fun _ _ => .error .tooManyLinks) place parts
  | links + 1, place, parts => walkParts top (walk top links) place parts

/-- What is wrong with a path before anything is looked up. -/
def pathFault? (path : String) : Option Fault :=
  if path.toList.contains '\x00' then some .nullInName
  else if path.isEmpty then some .missing
  else if pathLimit ≤ path.utf8ByteSize then some .nameTooLong
  else none

variable [Start]

/-- The names that lead to what a path stands for. -/
def resolve (top : Node) (path : String) : Except Fault (List String) :=
  match pathFault? path with
  | some fault => .error fault
  | none => top.walk linkLimit (Start.of path) (Path.parts path)

def find (top : Node) (path : String) : Except Fault Node :=
  (top.resolve path).bind fun place =>
    match top.at? place with
    | some n => .ok n
    | none => .error .missing

/-- Whether a path stands for a directory, be it behind links. -/
def isDirectoryAt (top : Node) (path : String) : Bool :=
  match top.find path with
  | .ok n => n.isDirectory
  | .error _ => false

def read (top : Node) (path : String) : Except Fault ByteArray :=
  (top.find path).bind fun n =>
    match n with
    | .file content => .ok content
    | _ => .error .isDirectory

def readText (top : Node) (path : String) : Except Fault String :=
  (top.read path).bind fun content =>
    match String.fromUTF8? content with
    | some text => .ok text
    | none => .error .notText

/-- The content of the file at a place, or of the one that a link there leads to. -/
def contentAt? (top : Node) (place : List String) : Option ByteArray :=
  match top.at? place with
  | some (.file content) => some content
  | some (.link _) =>
    match top.walk linkLimit place.dropLast (place.drop (place.length - 1)) with
    | .ok target =>
      match top.at? target with
      | some (.file content) => some content
      | _ => none
    | .error _ => none
  | _ => none

/-- All files and links to files, by their paths. -/
def contents (top : Node) : List (String × ByteArray) :=
  top.places.filterMap fun place => (top.contentAt? place).map ("/".intercalate place, ·)

def changed (before after : Node) : List (String × ByteArray) :=
  after.contents.filter fun (path, content) =>
    !(before.contents.any fun (old, was) => old = path && was.data.toList = content.data.toList)

end Node

end TypedDecl.Files
