import Std.Time.Zoned
import TypedDecl.CommandLine.Run

namespace TypedDecl.Main

/-- What the system says of a failure: its words and the number that it has for it. -/
def faultOf : IO.Error → Files.Fault
  | .noFileOrDirectory .. => .missing
  | .alreadyExists _ code words
  | .otherError code words
  | .resourceBusy code words
  | .resourceVanished code words
  | .unsupportedOperation code words
  | .hardwareFault code words
  | .unsatisfiedConstraints code words
  | .illegalOperation code words
  | .protocolError code words
  | .timeExpired code words
  | .interrupted _ code words
  | .invalidArgument _ code words
  | .permissionDenied _ code words
  | .resourceExhausted _ code words
  | .inappropriateType _ code words
  | .noSuchThing _ code words => .other (words ++ " (os error " ++ toString code ++ ")")
  | e => .other (toString e)

def attempt {α : Type} (action : IO α) : IO (Except Files.Fault α) := do
  try
    return .ok (← action)
  catch e =>
    return .error (faultOf e)

def readText (path : String) : IO (Except Files.Fault String) := do
  match ← attempt (IO.FS.readBinFile path) with
  | .error fault => return .error fault
  | .ok content =>
    match String.fromUTF8? content with
    | some text => return .ok text
    | none => return .error .notText

def parentOf (path : String) : String :=
  let names := "/".intercalate (Files.Path.parentComponents path)
  if Files.Path.isAbsolute path then "/" ++ names else if names.isEmpty then "." else names

def temporaryName : IO String := do
  let bytes ← IO.getRandomBytes 8
  return ".tmp" ++ String.join (bytes.toList.map fun b => toString b.toNat)

/-- Writes a file beside its place and moves it there when it is complete. -/
def writeText (path text : String) : IO (Except Files.Fault Unit) :=
  attempt do
    let parent := parentOf path
    IO.FS.createDirAll parent
    let draft := Files.Path.join parent (← temporaryName)
    try
      IO.FS.writeFile draft text
      IO.FS.rename draft path
    catch e =>
      IO.FS.removeFile draft
      throw e

/-- The tree of the paths on the lines of standard input. -/
def listed : IO Files.Node := do
  let lines ← (← IO.getStdin).lines
  return lines.foldl (fun top line =>
    let node : Files.Node := if line.endsWith "/" then .empty else .file ByteArray.empty
    Files.Node.putAt node ((Files.Path.parts line).filter (· ≠ ".")) top) .empty

def host : Host IO where
  readText := readText
  list path := return (← listed).list path
  write := writeText

def now : IO Moment := do
  let t ← Std.Time.PlainDateTime.now
  return ⟨t.year.toInt, t.month.val.toNat, t.day.val.toNat, t.hour.val.toNat, t.minute.val.toNat,
    t.second.val.toNat, t.nanosecond.val.toNat⟩

end TypedDecl.Main

def main (words : List String) : IO UInt32 := do
  let outcome ← TypedDecl.CommandLine.run TypedDecl.Main.host (← TypedDecl.Main.now) words
  IO.print outcome.stdout
  match outcome.summary with
  | some line => IO.eprintln line
  | none => pure ()
  return UInt32.ofNat outcome.code
