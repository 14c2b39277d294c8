namespace TypedDecl.CommandLine

structure OptionSpec where
  /-- What the option is known by, which is its long name if it has one. -/
  key : String
  hasLong : Bool
  short : Option Char
  /-- The values that it takes; it takes none at all if there is no such test. -/
  accepts : Option (String → Bool)
  repeats : Bool

namespace OptionSpec

def text (key : String) : OptionSpec := ⟨key, true, none, some fun _ => true, false⟩

def path (key : String) (short : Option Char) : OptionSpec :=
  ⟨key, true, short, some fun v => !v.isEmpty, false⟩

def bool (key : String) : OptionSpec :=
  ⟨key, true, none, some fun v => v = "true" || v = "false", false⟩

def flag (key : String) (short : Option Char) : OptionSpec := ⟨key, true, short, none, false⟩

end OptionSpec

/-- The options that were given, each with its value; that of a flag is empty. -/
abbrev Given := List (String × String)

/-- Whether reading options goes on, and from which words. -/
inductive Progress
  | failed
  /-- By the option with this key, which answers at once, whatever follows it. -/
  | answered (key : String)
  | more (given : Given) (rest : List String)

def versionKey : String := "version"

def helpKey : String := "help"

def note (spec : OptionSpec) (value : String) (given : Given) (rest : List String) : Progress :=
  if !spec.repeats && given.any (·.1 = spec.key) then .failed
  else if !(spec.accepts.all fun ok => ok value) then .failed
  else if spec.key = versionKey || spec.key = helpKey then .answered spec.key
  else .more (given ++ [(spec.key, value)]) rest

def isValue (word : String) : Bool :=
  match word.toList with
  | '-' :: _ :: _ => false
  | _ => true

/-- Takes the value of an option from the words that follow. -/
def noteNext (spec : OptionSpec) (given : Given) : List String → Progress
  | [] => .failed
  | word :: rest => if isValue word then note spec word given rest else .failed

/-- A long option, from behind its hyphens. -/
def longOption (specs : List OptionSpec) (word : List Char) (given : Given) (rest : List String) :
    Progress :=
  let key := String.ofList (word.takeWhile (· ≠ '='))
  match specs.find? fun s => s.hasLong && s.key = key with
  | none => .failed
  | some spec =>
    match word.dropWhile (· ≠ '='), spec.accepts with
    | [], none => note spec "" given rest
    | [], some _ => noteNext spec given rest
    | _ :: _, none => .failed
    | _ :: value, some _ => note spec (String.ofList value) given rest

def shortOptions (specs : List OptionSpec) : List Char → Given → List String → Progress
  | [], given, rest => .more given rest
  | c :: cs, given, rest =>
    match specs.find? fun s => s.short = some c with
    | none => .failed
    | some spec =>
      match spec.accepts with
      | none =>
        match note spec "" given rest with
        | .more given rest => shortOptions specs cs given rest
        | p => p
      | some _ =>
        match cs with
        | [] => noteNext spec given rest
        | '=' :: value => note spec (String.ofList value) given rest
        | value => note spec (String.ofList value) given rest

/-- Reads options up to the first word that is none. Two hyphens end the options. The first argument
bounds the number of words. -/
def readOptions (specs : List OptionSpec) : Nat → Given → List String → Progress
  | _, given, [] => .more given []
  | 0, _, _ :: _ => .failed
  | fuel + 1, given, word :: rest =>
    let step : Option Progress := match word.toList with
      | ['-', '-'] => if rest.isEmpty then some (.more given []) else some .failed
      | '-' :: '-' :: name => some (longOption specs name given rest)
      | '-' :: c :: cs => some (shortOptions specs (c :: cs) given rest)
      | _ => none
    match step with
    | none => .more given (word :: rest)
    | some (.more given rest) => readOptions specs fuel given rest
    | some p => p

end TypedDecl.CommandLine
