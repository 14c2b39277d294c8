namespace TypedDecl.Files.Path

def isAbsolute (path : String) : Bool := path.toList.head? = some '/'

/-- A path under a directory; an absolute path takes its place. -/
def join (directory path : String) : String :=
  if isAbsolute path || directory.isEmpty then path
  else if directory.toList.getLast? = some '/' then directory ++ path
  else directory ++ "/" ++ path

/-- The texts between slashes; `acc` holds the characters since the last one, in reverse. -/
def splitGo : List Char → List Char → List (List Char)
  | acc, [] => [acc.reverse]
  | acc, c :: cs => if c = '/' then acc.reverse :: splitGo [] cs else splitGo (c :: acc) cs

/-- The names of a path. Slashes in a row are one; one at the end becomes a point. -/
def parts (path : String) : List String :=
  let names := splitGo [] path.toList
  (names.filter (!·.isEmpty)).map String.ofList ++
    if path.toList.getLast? = some '/' then ["."] else []

def isDots (name : String) : Bool := name = "." || name = ".."

/-- The parts in which a path differs from one without detours: points count only at the front of a
path that is not absolute. -/
def components (path : String) : List String :=
  let names := (splitGo [] path.toList).filter (!·.isEmpty) |>.map String.ofList
  match names with
  | "." :: rest => (if isAbsolute path then [] else ["."]) ++ rest.filter (· ≠ ".")
  | names => names.filter (· ≠ ".")

/-- The components of the directory that a path is in; there is none for an empty path. -/
def parentComponents (path : String) : List String := (components path).dropLast

end TypedDecl.Files.Path
