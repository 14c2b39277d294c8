import TypedDecl.Decimal.Shortest
import TypedDecl.Text.Quoted
import TypedDecl.Toml.Value

namespace TypedDecl.Toml

open TypedDecl.Text.Quoted (hexValue?)

def digits (ok : Char → Bool) : Parser (List Char)
  | [] => none
  | c :: cs =>
    if ok c then
      match cs with
      | '_' :: rest => (digits ok rest).map fun (ds, rest) => (c :: ds, rest)
      | rest =>
        match rest with
        | d :: _ =>
          if ok d then (digits ok rest).map fun (ds, rest) => (c :: ds, rest)
          else some ([c], rest)
        | [] => some ([c], [])
    else none

def numberOf (base : Nat) (ds : List Char) : Nat :=
  ds.foldl (fun n d => n * base + (hexValue? d).getD 0) 0

def isHexDigit (c : Char) : Bool := (hexValue? c).isSome
def isOctal (c : Char) : Bool := '0' ≤ c && c ≤ '7'
def isBinary (c : Char) : Bool := c = '0' || c = '1'

/-- The digits before a point: none may follow a zero at the front. -/
def wholeDigits : Parser (List Char)
  | '0' :: cs => some (['0'], cs)
  | cs => digits Char.isDigit cs

/-- How far whole numbers go, up to which there are negative ones and before which positive ones. -/
def integerLimit : Nat := 0x8000000000000000

/-- A whole number that 64 bits hold. -/
def integerOf? (negative : Bool) (n : Nat) : Option Value :=
  if negative then if n ≤ integerLimit then some (.integer (-n)) else none
  else if n < integerLimit then some (.integer n) else none

/-- A whole number in another base, from behind the two characters that tell it. -/
def based (ok : Char → Bool) (base : Nat) : Parser Value := fun cs =>
  match digits ok cs with
  | none => none
  | some (ds, cs) => (integerOf? false (numberOf base ds)).map (·, cs)

def places? : Parser (Option (List Char))
  | '.' :: cs => (digits Char.isDigit cs).map fun (ds, cs) => (some ds, cs)
  | cs => some (none, cs)

def exponent? : Parser (Option (Bool × List Char))
  | c :: cs =>
    if c = 'e' || c = 'E' then
      let (negative, cs) := match cs with
        | '-' :: cs => (true, cs)
        | '+' :: cs => (false, cs)
        | cs => (false, cs)
      (digits Char.isDigit cs).map fun (ds, cs) => (some (negative, ds), cs)
    else some (none, c :: cs)
  | [] => some (none, [])

/-- The numbers from here on have no neighbour among the binary fractions. -/
def floatLimit : Nat := Nat.pow 2 1024 - Nat.pow 2 970

/-- Whether `n * 10 ^ e` is so large that it has no neighbour among the binary fractions. -/
def tooLarge (n : Nat) (e : Int) : Bool :=
  let size : Int := (Nat.toDigits 10 n).length + e
  n ≠ 0 && (400 < size ||
    (300 < size && floatLimit * Decimal.divisor 10 e ≤ n * Decimal.raised 10 e))

/-- A number in decimal, from behind its sign. -/
def decimal (negative : Bool) : Parser Value := fun cs => do
  let (whole, cs) ← wholeDigits cs
  let (places, cs) ← places? cs
  let (exponent, cs) ← exponent? cs
  match places, exponent with
  | none, none => (integerOf? negative (numberOf 10 whole)).map (·, cs)
  | _, _ =>
    let fraction := places.getD []
    let (down, ds) := exponent.getD (false, [])
    let e : Int := numberOf 10 ds
    let e := (if down then -e else e) - fraction.length
    if !negative && tooLarge (numberOf 10 (whole ++ fraction)) e then none
    else
      let shown := (if negative then ['-'] else []) ++ whole ++
        (if fraction.isEmpty then [] else '.' :: fraction) ++
        (if ds.isEmpty then [] else 'e' :: (if down then ['-'] else []) ++ ds)
      some (.float (String.ofList shown), cs)

def special : Parser Value
  | 'i' :: 'n' :: 'f' :: cs => some (.float "inf", cs)
  | 'n' :: 'a' :: 'n' :: cs => some (.float "nan", cs)
  | _ => none

/-- A number of two digits, if it is in a range. -/
def twoDigits (low high : Nat) : Parser Nat
  | a :: b :: cs =>
    if a.isDigit && b.isDigit then
      let n := numberOf 10 [a, b]
      if low ≤ n && n ≤ high then some (n, cs) else none
    else none
  | _ => none

def padTo (width n : Nat) : String :=
  let ds := Nat.toDigits 10 n
  String.ofList (List.replicate (width - ds.length) '0' ++ ds)

def lastDay (year month : Nat) : Nat :=
  if month = 2 then
    if year % 4 = 0 && (year % 100 ≠ 0 || year % 400 = 0) then 29 else 28
  else if month = 4 || month = 6 || month = 9 || month = 11 then 30
  else 31

def dateAfter (year : Nat) : Parser String := fun cs =>
  match twoDigits 1 12 cs with
  | some (month, '-' :: cs) =>
    match twoDigits 1 (lastDay year month) cs with
    | some (day, cs) =>
      some (padTo 4 year ++ "-" ++ padTo 2 month ++ "-" ++ padTo 2 day, cs)
    | none => none
  | _ => none

/-- Parts of a second: nine places count, and zeros at the end are left out. -/
def secondParts (ds : List Char) : String :=
  let kept := ((ds.take 9).reverse.dropWhile (· = '0')).reverse
  if kept.isEmpty then "" else "." ++ String.ofList kept

/-- A time of day, from behind the colon that follows its hour. -/
def timeAfter (hour : Nat) : Parser String := fun cs =>
  match twoDigits 0 59 cs with
  | some (minute, ':' :: cs) =>
    match twoDigits 0 60 cs with
    | some (second, cs) =>
      let (parts, cs) := match cs with
        | '.' :: d :: rest =>
          if d.isDigit then
            (secondParts (d :: rest.takeWhile Char.isDigit), rest.dropWhile Char.isDigit)
          else ("", cs)
        | cs => ("", cs)
      some (padTo 2 hour ++ ":" ++ padTo 2 minute ++ ":" ++ padTo 2 second ++ parts, cs)
    | none => none
  | _ => none

def offset? : Parser String
  | 'Z' :: cs | 'z' :: cs => some ("Z", cs)
  | c :: cs =>
    if c = '+' || c = '-' then
      match twoDigits 0 23 cs with
      | some (hours, ':' :: cs) =>
        (twoDigits 0 59 cs).map fun (minutes, cs) =>
          let sign := if c = '-' && hours * 60 + minutes ≠ 0 then "-" else "+"
          (sign ++ padTo 2 hours ++ ":" ++ padTo 2 minutes, cs)
      | _ => none
    else some ("", c :: cs)
  | [] => some ("", [])

def timePart? : Parser String
  | c :: cs =>
    if c = 'T' || c = 't' || c = ' ' then
      match twoDigits 0 23 cs with
      | some (hour, ':' :: rest) => do
        let (time, rest) ← timeAfter hour rest
        let (offset, rest) ← offset? rest
        pure ("T" ++ time ++ offset, rest)
      | _ => some ("", c :: cs)
    else some ("", c :: cs)
  | [] => some ("", [])

/-- What begins with a digit: a date, a time of day or a number. -/
def digitValue : Parser Value := fun cs =>
  match cs with
  | a :: b :: c :: d :: '-' :: rest =>
    if [a, b, c, d].all Char.isDigit then do
      let (date, rest) ← dateAfter (numberOf 10 [a, b, c, d]) rest
      let (time, rest) ← timePart? rest
      pure (.date (date ++ time), rest)
    else decimal false cs
  | '0' :: 'x' :: rest => based isHexDigit 16 rest
  | '0' :: 'o' :: rest => based isOctal 8 rest
  | '0' :: 'b' :: rest => based isBinary 2 rest
  | _ =>
    match twoDigits 0 23 cs with
    | some (hour, ':' :: rest) => (timeAfter hour rest).map fun (time, rest) => (.date time, rest)
    | _ => decimal false cs

def signedValue (negative : Bool) : Parser Value := fun cs =>
  match special cs with
  | some (.float s, cs) => some (.float ((if negative then "-" else "") ++ s), cs)
  | _ => decimal negative cs

end TypedDecl.Toml
