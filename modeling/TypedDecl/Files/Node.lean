namespace TypedDecl.Files

inductive Node
  | file (content : ByteArray)
  | link (target : String)
  | directory (entries : List (String × Node))

namespace Node

def empty : Node := directory []

def isDirectory : Node → Bool
  | directory _ => true
  | _ => false

/-- What a name in a directory stands for. -/
def child? (name : String) : Node → Option Node
  | directory entries => entries.lookup name
  | _ => none

/-- What names from this node on lead to. Links are not followed. -/
def at? : List String → Node → Option Node
  | [], n => some n
  | name :: names, n => (n.child? name).bind (at? names)

def putEntry (name : String) (new : Node) : List (String × Node) → List (String × Node)
  | [] => [(name, new)]
  | (m, n) :: es => if m = name then (name, new) :: es else (m, n) :: putEntry name new es

/-- Puts a node where names lead to; directories on the way that are missing are made. -/
def putAt (new : Node) : List String → Node → Node
  | [], _ => new
  | name :: names, n =>
    let entries := match n with
      | directory entries => entries
      | _ => []
    directory (putEntry name (putAt new names ((entries.lookup name).getD empty)) entries)

def eraseEntry (name : String) : List String → Node → Node
  | [], directory entries => directory (entries.filter fun e => e.1 ≠ name)
  | d :: dir, directory entries =>
    match entries.lookup d with
    | some n => directory (putEntry d (eraseEntry name dir n) entries)
    | none => directory entries
  | _, n => n

mutual

/-- The names that lead to all nodes below, each before those below it. -/
def places : Node → List (List String)
  | file _ => []
  | link _ => []
  | directory entries => entryPlaces entries

def entryPlaces : List (String × Node) → List (List String)
  | [] => []
  | (name, n) :: es => [name] :: n.places.map (name :: ·) ++ entryPlaces es

end

end Node

end TypedDecl.Files
