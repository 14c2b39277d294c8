import TypedDecl.Text.Quoted
import TypedDecl.Unicode.Identifier

namespace TypedDecl.Code.Literal

open TypedDecl.Unicode (isIdentStart isIdentContinue)
open TypedDecl.Text.Quoted (hexValue? readCode)

def afterIdent? : List Char → Option (List Char)
  | c :: cs => if isIdentStart c then some (cs.dropWhile isIdentContinue) else none
  | [] => none

def afterSuffix (cs : List Char) : List Char :=
  (afterIdent? cs).getD cs

inductive Content
  | text
  | bytes
  | nonNull
  deriving DecidableEq

namespace Content

def allows (k : Content) (c : Char) : Bool :=
  match k with
  | text => true
  | bytes => c.toNat < 128
  | nonNull => c.toNat ≠ 0

def isHex (c : Char) : Bool := (hexValue? c).isSome

/-- A two-digit escape: below 128 in text, any byte in bytes, not zero in the last kind. -/
def allowsCode (k : Content) (a b : Char) : Bool :=
  match k with
  | text => '0' ≤ a && a ≤ '7' && isHex b
  | bytes => isHex a && isHex b
  | nonNull => isHex a && isHex b && !(a = '0' && b = '0')

/-- Drops the escape that a backslash began. -/
def afterEscape? (k : Content) : List Char → Option (List Char)
  | 'x' :: a :: b :: cs => if k.allowsCode a b then some cs else none
  | 'u' :: '\x7b' :: cs =>
    match k, readCode cs 0 0 with
    | bytes, _ => none
    | _, none => none
    | nonNull, some (c, rest) => if c.toNat = 0 then none else some rest
    | text, some (_, rest) => some rest
  | c :: cs =>
    if c = 'n' || c = 'r' || c = 't' || c = '\\' || c = '\'' || c = '"' then some cs
    else if c = '0' && k ≠ nonNull then some cs
    else none
  | [] => none

end Content

/-- Drops the blanks after a backslash that ends a line. A carriage return among them must stand
before a line feed, and something must follow. -/
def afterGap? : Bool → List Char → Option (List Char)
  | true, '\n' :: cs => afterGap? false cs
  | true, _ => none
  | false, [] => none
  | false, c :: cs =>
    if c = '\r' then afterGap? true cs
    else if c = ' ' || c = '\t' || c = '\n' then afterGap? false cs
    else some (c :: cs)

/-- Past the closing quote of a literal with escapes. The first argument bounds the steps. -/
def afterCooked? (k : Content) : Nat → List Char → Option (List Char)
  | 0, _ => none
  | fuel + 1, cs =>
    match cs with
    | [] => none
    | '"' :: rest => some (afterSuffix rest)
    | '\r' :: '\n' :: rest => afterCooked? k fuel rest
    | '\r' :: _ => none
    | '\\' :: '\n' :: rest => (afterGap? false rest).bind (afterCooked? k fuel)
    | '\\' :: '\r' :: rest => (afterGap? true rest).bind (afterCooked? k fuel)
    | '\\' :: rest => (k.afterEscape? rest).bind (afterCooked? k fuel)
    | c :: rest => if k.allows c then afterCooked? k fuel rest else none

/-- Past the closing quote of a literal without escapes, which as many hash marks follow as stand
before its opening quote. -/
def afterRaw? (k : Content) (marks : Nat) : List Char → Option (List Char)
  | [] => none
  | '"' :: rest =>
    if rest.take marks = List.replicate marks '#' then some (afterSuffix (rest.drop marks))
    else afterRaw? k marks rest
  | '\r' :: '\n' :: rest => afterRaw? k marks rest
  | '\r' :: _ => none
  | c :: rest => if k.allows c then afterRaw? k marks rest else none

def rawFrom? (k : Content) (cs : List Char) : Option (List Char) :=
  let marks := (cs.takeWhile (· = '#')).length
  match cs.drop marks with
  | '"' :: rest => if marks ≤ 255 then afterRaw? k marks rest else none
  | _ => none

def cookedFrom? (k : Content) (cs : List Char) : Option (List Char) :=
  afterCooked? k (cs.length + 1) cs

def afterString? : List Char → Option (List Char)
  | '"' :: cs => cookedFrom? .text cs
  | 'r' :: cs => rawFrom? .text cs
  | 'b' :: '"' :: cs => cookedFrom? .bytes cs
  | 'b' :: 'r' :: cs => rawFrom? .bytes cs
  | 'c' :: '"' :: cs => cookedFrom? .nonNull cs
  | 'c' :: 'r' :: cs => rawFrom? .nonNull cs
  | _ => none

def afterQuote? : List Char → Option (List Char)
  | '\'' :: cs => some (afterSuffix cs)
  | _ => none

def afterByte? : List Char → Option (List Char)
  | 'b' :: '\'' :: '\\' :: cs => (Content.bytes.afterEscape? cs).bind afterQuote?
  | 'b' :: '\'' :: c :: cs => if c.toNat < 128 then afterQuote? cs else none
  | _ => none

def afterChar? : List Char → Option (List Char)
  | '\'' :: '\\' :: cs => (Content.text.afterEscape? cs).bind afterQuote?
  | '\'' :: _ :: cs => afterQuote? cs
  | _ => none

/-- Past the digits of a number with a point; whether a point was seen comes with the rest. A point
that a second point or an identifier follows is none of the number's. -/
def afterMantissa? : Bool → List Char → Option (Bool × List Char)
  | pointed, [] => some (pointed, [])
  | pointed, c :: cs =>
    if c.isDigit || c = '_' then afterMantissa? pointed cs
    else if c = '.' && !pointed then
      match cs with
      | d :: _ => if d = '.' || isIdentStart d then none else afterMantissa? true cs
      | [] => some (true, [])
    else some (pointed, c :: cs)

def afterExponent? : Bool → Bool → List Char → Option (List Char)
  | _, valued, [] => if valued then some [] else none
  | signed, valued, c :: cs =>
    if c = '+' || c = '-' then
      if valued then some (c :: cs) else if signed then none else afterExponent? true valued cs
    else if c.isDigit then afterExponent? signed true cs
    else if c = '_' then afterExponent? signed valued cs
    else if valued then some (c :: cs)
    else none

/-- Past the suffix of a number, which must end where the identifier characters do. -/
def numberEnd? (cs : List Char) : Option (List Char) :=
  match afterSuffix cs with
  | c :: rest => if isIdentContinue c then none else some (c :: rest)
  | [] => some []

def afterFloat? (cs : List Char) : Option (List Char) :=
  match cs with
  | c :: rest =>
    if c.isDigit then
      match afterMantissa? false rest with
      | none => none
      | some (pointed, rest) =>
        match rest with
        | e :: tail =>
          if e = 'e' || e = 'E' then
            match afterExponent? false false tail with
            | some rest => numberEnd? rest
            | none => if pointed then numberEnd? (e :: tail) else none
          else if pointed then numberEnd? (e :: tail) else none
        | [] => if pointed then some [] else none
    else none
  | [] => none

/-- Past the digits of a whole number. Letters count as digits where the base has them; a decimal
digit that the base lacks is an error. -/
def afterDigits? (base : Nat) : Bool → List Char → Option (List Char)
  | empty, [] => if empty then none else some []
  | empty, c :: cs =>
    if c = '_' then
      if empty && base = 10 then none else afterDigits? base empty cs
    else
      match hexValue? c with
      | some d =>
        if d < base then afterDigits? base false cs
        else if d < 10 then none
        else if empty then none
        else some (c :: cs)
      | none => if empty then none else some (c :: cs)

def afterInteger? (cs : List Char) : Option (List Char) :=
  let digits :=
    match cs with
    | '0' :: 'x' :: rest => afterDigits? 16 true rest
    | '0' :: 'o' :: rest => afterDigits? 8 true rest
    | '0' :: 'b' :: rest => afterDigits? 2 true rest
    | rest => afterDigits? 10 true rest
  digits.bind numberEnd?

def after? (cs : List Char) : Option (List Char) :=
  afterString? cs <|> afterByte? cs <|> afterChar? cs <|> afterFloat? cs <|> afterInteger? cs

def isSuffix (cs : List Char) : Bool :=
  match afterIdent? cs with
  | some rest => rest.isEmpty
  | none => false

/-- Whether the letter of an exponent stands before these characters: a sign or a digit follows it,
and after the digits at most a suffix. -/
def isExponent : Bool → List Char → Bool
  | digits, [] => digits
  | digits, c :: cs =>
    if c = '_' then isExponent digits cs
    else if c = '+' || c = '-' then true
    else if c.isDigit then isExponent true cs
    else digits && isSuffix (c :: cs)

/-- The value of the digits that a literal begins with, and the rest of it. A point, an exponent or
a digit that the base lacks makes the literal no whole number. -/
def digitsValue? (base : Nat) : Bool → Nat → List Char → Option (Nat × List Char)
  | seen, value, [] => if seen then some (value, []) else none
  | seen, value, c :: cs =>
    if c = '_' then digitsValue? base seen value cs
    else if base = 10 && (c = '.' || (c = 'e' || c = 'E') && isExponent false cs) then none
    else
      match hexValue? c with
      | some d =>
        if d < base then digitsValue? base true (value * base + d) cs
        else if d < 10 || !seen then none
        else some (value, c :: cs)
      | none => if seen then some (value, c :: cs) else none

/-- The value of a whole number and its suffix. -/
def whole? (text : String) : Option (Nat × List Char) :=
  let digits :=
    match text.toList with
    | '0' :: 'x' :: rest => digitsValue? 16 false 0 rest
    | '0' :: 'o' :: rest => digitsValue? 8 false 0 rest
    | '0' :: 'b' :: rest => digitsValue? 2 false 0 rest
    | rest => digitsValue? 10 false 0 rest
  match digits with
  | some (value, suffix) =>
    if suffix.isEmpty || isSuffix suffix then some (value, suffix) else none
  | none => none

def isNumber (text : String) : Bool :=
  match text.toList with
  | c :: _ => c.isDigit
  | [] => false

def isFraction (text : String) : Bool := isNumber text && (whole? text).isNone

def isText (text : String) : Bool :=
  match text.toList with
  | '"' :: _ | 'r' :: _ => true
  | _ => false

end TypedDecl.Code.Literal
