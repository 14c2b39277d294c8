import TypedDecl.Unicode.Shown

namespace TypedDecl.Text.Quoted

def hexDigit (n : Nat) : Char :=
  if n < 10 then Char.ofNat (48 + n) else Char.ofNat (87 + n)

/-- Digits in front of `acc`; the first argument bounds their number. -/
def hexGo : Nat → Nat → List Char → List Char
  | 0, _, acc => acc
  | k + 1, n, acc =>
    if n < 16 then hexDigit n :: acc else hexGo k (n / 16) (hexDigit (n % 16) :: acc)

/-- A code point in lower-case hexadecimal: at most six digits, the first not zero. -/
def hex (n : Nat) : List Char := hexGo 6 n []

def escapeByCode (c : Char) : List Char :=
  '\\' :: 'u' :: '\x7b' :: hex c.toNat ++ ['\x7d']

/-- One character as it stands between double quotes; the null character is left to the caller. -/
def escapeChar (c : Char) : List Char :=
  if c = '\t' then ['\\', 't']
  else if c = '\r' then ['\\', 'r']
  else if c = '\n' then ['\\', 'n']
  else if c = '"' then ['\\', '"']
  else if c = '\\' then ['\\', '\\']
  else if Unicode.isShown c && !Unicode.isJoining c then [c]
  else escapeByCode c

/-- Every null character is written `\0`. -/
def escape : List Char → List Char
  | [] => []
  | c :: cs => (if c.toNat = 0 then ['\\', '0'] else escapeChar c) ++ escape cs

def startsOctal : List Char → Bool
  | c :: _ => '0' ≤ c && c ≤ '7'
  | [] => false

/-- A null character is written `\x00` where an octal digit follows and `\0` elsewhere, so that no
reader takes the two for an octal escape. -/
def escapeGuarded : List Char → List Char
  | [] => []
  | c :: cs =>
    (if c.toNat = 0 then
      if startsOctal cs then ['\\', 'x', '0', '0'] else ['\\', '0']
    else escapeChar c) ++ escapeGuarded cs

def quote (s : String) : String :=
  String.ofList ('"' :: escape s.toList ++ ['"'])

def quoteGuarded (s : String) : String :=
  String.ofList ('"' :: escapeGuarded s.toList ++ ['"'])

def hexValue? (c : Char) : Option Nat :=
  if '0' ≤ c && c ≤ '9' then some (c.toNat - 48)
  else if 'a' ≤ c && c ≤ 'f' then some (c.toNat - 87)
  else if 'A' ≤ c && c ≤ 'F' then some (c.toNat - 55)
  else none

/-- A code point that is a character. -/
def charOfCode? (n : Nat) : Option Char :=
  if h : n.isValidChar then some (Char.ofNatAux n h) else none

/-- Reads the digits of a code point up to the closing brace. Underscores may stand after the
first digit; there are at most six digits. -/
def readCode : List Char → Nat → Nat → Option (Char × List Char)
  | [], _, _ => none
  | c :: cs, count, value =>
    if c = '_' then
      if count = 0 then none else readCode cs count value
    else if c = '\x7d' then
      if count = 0 then none else (charOfCode? value).map (·, cs)
    else
      match hexValue? c with
      | some d => if count = 6 then none else readCode cs (count + 1) (value * 16 + d)
      | none => none

/-- What a backslash and the characters after it stand for, if they are an escape. -/
def readEscape : List Char → Option (Char × List Char)
  | 'n' :: cs => some ('\n', cs)
  | 'r' :: cs => some ('\r', cs)
  | 't' :: cs => some ('\t', cs)
  | '\\' :: cs => some ('\\', cs)
  | '\'' :: cs => some ('\'', cs)
  | '"' :: cs => some ('"', cs)
  | '0' :: cs => some (Char.ofNat 0, cs)
  | 'x' :: a :: b :: cs => do
    let high ← hexValue? a
    let low ← hexValue? b
    if high < 8 then some (Char.ofNat (high * 16 + low), cs) else none
  | 'u' :: '\x7b' :: cs => readCode cs 0 0
  | _ => none

def isGap (c : Char) : Bool :=
  c = ' ' || c = '\t' || c = '\n' || c = '\r'

/-- The text that stands before the closing quote. A backslash at the end of a line hides the line
end and the blanks after it. The first argument bounds the number of steps. -/
def readBody : Nat → List Char → Option (List Char)
  | 0, _ => none
  | fuel + 1, cs =>
    match cs with
    | [] => none
    | '"' :: _ => some []
    | '\r' :: '\n' :: rest => (readBody fuel rest).map ('\n' :: ·)
    | '\\' :: rest =>
      match rest with
      | '\n' :: rest => readBody fuel (rest.dropWhile isGap)
      | '\r' :: rest => readBody fuel (rest.dropWhile isGap)
      | rest => do
        let (c, rest) ← readEscape rest
        let tail ← readBody fuel rest
        pure (c :: tail)
    | c :: rest => (readBody fuel rest).map (c :: ·)

/-- What stands before the first quote that so many hash marks follow. -/
def untilQuote (marks : Nat) : List Char → List Char
  | [] => []
  | c :: cs =>
    if c = '"' && cs.take marks = List.replicate marks '#' then [] else c :: untilQuote marks cs

/-- The text that a string literal stands for. One without escapes has as many hash marks before its
opening quote as after its closing one. -/
def decode (literal : String) : Option String :=
  match literal.toList with
  | '"' :: cs => (readBody (cs.length + 1) cs).map String.ofList
  | 'r' :: cs =>
    let marks := (cs.takeWhile (· = '#')).length
    some (String.ofList (untilQuote marks (cs.drop (marks + 1))))
  | _ => none

end TypedDecl.Text.Quoted
