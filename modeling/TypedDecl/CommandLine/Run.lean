import TypedDecl.CommandLine.Help
import TypedDecl.Generation

namespace TypedDecl.CommandLine

/-- What a run leaves besides files: its exit code, its standard output, and a line that sums up
what was written. -/
structure Outcome where
  code : Nat
  stdout : String
  summary : Option String
  deriving DecidableEq, Repr

namespace Outcome

def misuse : Outcome := ⟨2, "", none⟩

def version : Outcome :=
  ⟨0, Provenance.generatorName ++ " " ++ Provenance.generatorVersion ++ "\n", none⟩

def help (topic : Topic) : Outcome := ⟨0, topic.page, none⟩

def failure : Error → Outcome
  | .noLayout => ⟨101, "", none⟩
  | e => ⟨1, e.message ++ "\n", none⟩

def printed (g : Generated) : Outcome := ⟨0, g.code, none⟩

def written (g : Generated) (path : String) : Outcome :=
  ⟨0, "", some ("Generated " ++ toString g.count ++ " declarations to " ++ path)⟩

end Outcome

variable {m : Type → Type} [Monad m]

namespace Invocation

def loadSettings (host : Host m) (i : Invocation) : m (Except Error Settings) :=
  match i.config with
  | some path => Settings.load host path
  | none => pure (.ok .standard)

def generate (host : Host m) (p : Provenance) (i : Invocation) (s : Settings) :
    m (Except Error Generated) :=
  match i.command with
  | .sql directory => Generated.sql s p (Catalog.connect host directory)
  | .staticMap root => Generated.staticMap host s p root

def emit (host : Host m) (i : Invocation) (s : Settings) (g : Generated) : m Outcome :=
  if i.dryRun then pure (.printed g)
  else do
    match ← writeFile host (i.output s) g.code with
    | .error e => pure (.failure e)
    | .ok () => pure (.written g (i.output s))

def run (host : Host m) (now : Moment) (i : Invocation) : m Outcome := do
  match ← i.loadSettings host with
  | .error e => pure (.failure e)
  | .ok s =>
    let s := i.settings s
    match ← i.generate host (.own now) s with
    | .error e => pure (.failure e)
    | .ok g => i.emit host s g

end Invocation

def run (host : Host m) (now : Moment) (words : List String) : m Outcome :=
  match Request.ofWords words with
  | .misuse => pure .misuse
  | .version => pure .version
  | .help topic => pure (.help topic)
  | .run i => i.run host now

end TypedDecl.CommandLine
