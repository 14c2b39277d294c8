import TypedDecl.Unicode.Blank

namespace TypedDecl

/-- A date and a time of day. The nanoseconds of a leap second begin at a full second. -/
structure Moment where
  year : Int
  month : Nat
  day : Nat
  hour : Nat
  minute : Nat
  second : Nat
  nanosecond : Nat
  deriving DecidableEq, Repr

namespace Moment

/-- A number with zeros before it, so that it has so many digits at least. -/
def padded (width n : Nat) : String :=
  let digits := Nat.toDigits 10 n
  String.ofList (List.replicate (width - digits.length) '0' ++ digits)

/-- A year with four digits at least, and with a sign if it is negative or has more than four. -/
def yearText (year : Int) : String :=
  (if year < 0 then "-" else if 9999 < year then "+" else "") ++ padded 4 year.natAbs

def text (m : Moment) : String :=
  yearText m.year ++ "-" ++ padded 2 m.month ++ "-" ++ padded 2 m.day ++ " " ++
    padded 2 m.hour ++ ":" ++ padded 2 m.minute ++ ":" ++
    padded 2 (m.second + m.nanosecond / 1000000000)

end Moment

structure Provenance where
  generator : String
  version : String
  moment : Moment
  deriving DecidableEq, Repr

namespace Provenance

def generatorName : String := "declgen"

def generatorVersion : String := "0.1.0"

def own (moment : Moment) : Provenance := ⟨generatorName, generatorVersion, moment⟩

def notice (p : Provenance) : String :=
  "/*\nThis file was generated by " ++ p.generator ++ " version " ++ p.version ++ "\nAt " ++
    p.moment.text ++ "\n*/\n"

end Provenance

namespace Header

def standardLicense : String :=
  "Licensed under the Apache License, Version 2.0 (the \"License\");\n" ++
  "you may not use this file except in compliance with the License.\n" ++
  "You may obtain a copy of the License at\n" ++
  "\n" ++
  "    http://www.apache.org/licenses/LICENSE-2.0\n" ++
  "\n" ++
  "Unless required by applicable law or agreed to in writing, software\n" ++
  "distributed under the License is distributed on an \"AS IS\" BASIS,\n" ++
  "WITHOUT WARRANTIES OR CONDITIONS OF ANY KIND, either express or implied.\n" ++
  "See the License for the specific language governing permissions and\n" ++
  "limitations under the License."

def commentLine (line : String) : String :=
  if line.isEmpty then "//\n" else "// " ++ line ++ "\n"

/-- The licence and an empty line, or nothing if it is blank. -/
def licenseText (license : String) : String :=
  if Unicode.allBlank license then ""
  else String.join ((Unicode.lines license).map commentLine) ++ "\n"

def text (license : Option String) (p : Provenance) : String :=
  (license.map licenseText).getD "" ++ p.notice

end Header

end TypedDecl
