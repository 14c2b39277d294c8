import TypedDecl.Decimal.Shortest
import TypedDecl.Json.Cursor

namespace TypedDecl.Json

inductive Number
  | whole (n : Int)
  | fraction (f : Float)

namespace Number

def shown : Number → String
  | whole n => "integer \x60" ++ toString n ++ "\x60"
  | fraction f => "floating point \x60" ++ Decimal.floatText f ++ "\x60"

end Number

def wordLimit : Nat := 0x10000000000000000

/-- Digits that still fit into 64 bits, how many there are, and what follows them. -/
def addDigits : Nat → Nat → List Char → Nat × Nat
  | n, count, [] => (n, count)
  | n, count, c :: cs =>
    if c.isDigit && n * 10 + (c.toNat - 48) < wordLimit then
      addDigits (n * 10 + (c.toNat - 48)) (count + 1) cs
    else (n, count)

/-- The number `digits * 10 ^ exponent`; nothing if it is too large. Beyond the range of powers the
number is divided in steps, of which the first argument bounds the count. -/
def scaled? : Nat → Float → Int → Option Float
  | 0, _, _ => some 0.0
  | steps + 1, f, exponent =>
    if exponent.natAbs ≤ 308 then
      if 0 ≤ exponent then
        let g := f * Float.ofScientific 1 false exponent.toNat
        if g.isInf then none else some g
      else some (f / Float.ofScientific 1 false exponent.natAbs)
    else if f == 0.0 then some f
    else if 0 ≤ exponent then none
    else scaled? steps (f / 1e308) (exponent + 308)

/-- A binary fraction that ends at this place. -/
def fraction (positive : Bool) (digits : Nat) (exponent : Int) : Reader Number := fun c =>
  match scaled? 8 (Float.ofNat digits) exponent with
  | none => c.failHere .numberOutOfRange
  | some f => .ok (.fraction (if positive then f else -f), c)

def exponentLimit : Nat := 0x80000000

/-- The digits of an exponent, up to those that no longer fit; whether all did. -/
def exponentDigits : Nat → List Char → Nat × Nat × Bool
  | n, [] => (n, 0, true)
  | n, c :: cs =>
    if c.isDigit then
      if n * 10 + (c.toNat - 48) < exponentLimit then
        let (m, count, fits) := exponentDigits (n * 10 + (c.toNat - 48)) cs
        (m, count + 1, fits)
      else (n, 1, false)
    else (n, 0, true)

def exponent (positive : Bool) (digits : Nat) (before : Int) : Reader Number := fun c =>
  let c := c.next
  let up := c.peek? ≠ some '-'
  let c := if c.peek? = some '+' || c.peek? = some '-' then c.next else c
  match c.peek? with
  | none => c.failHere .endInValue
  | some d =>
    if !d.isDigit then c.failAhead .invalidNumber
    else
      let (n, count, fits) := exponentDigits (d.toNat - 48) (c.rest.drop 1)
      let c := c.skip (count + 1)
      if fits then fraction positive digits (if up then before + n else before - n) c
      else if up && digits ≠ 0 then c.failHere .numberOutOfRange
      else .ok (.fraction (if positive then 0.0 else -0.0), c.skipDigits)

def afterFraction (positive : Bool) (digits : Nat) (shift : Int) : Reader Number := fun c =>
  match c.peek? with
  | some 'e' | some 'E' => exponent positive digits shift c
  | _ => fraction positive digits shift c

def decimals (positive : Bool) (digits : Nat) (before : Int) : Reader Number := fun c =>
  let c := c.next
  let (n, count) := addDigits digits 0 c.rest
  let rest := c.skip count
  if rest.startsDigit then afterFraction positive n (before - count) rest.skipDigits
  else if count = 0 then
    if rest.rest.isEmpty then rest.failHere .endInValue else rest.failAhead .invalidNumber
  else afterFraction positive n (before - count) rest

/-- A whole number, which is one only if nothing else follows and 64 bits hold it. -/
def wholeOrMore (positive : Bool) (n : Nat) : Reader Number := fun c =>
  match c.peek? with
  | some '.' => decimals positive n 0 c
  | some 'e' | some 'E' => exponent positive n 0 c
  | _ =>
    if positive then .ok (.whole n, c)
    else if 0 < n && 2 * n ≤ wordLimit then .ok (.whole (-n), c)
    else .ok (.fraction (-Float.ofNat n), c)

def number (positive : Bool) : Reader Number := fun c =>
  match c.peek? with
  | none => c.failHere .endInValue
  | some '0' =>
    if c.next.startsDigit then c.next.failAhead .invalidNumber
    else wholeOrMore positive 0 c.next
  | some d =>
    if !d.isDigit then c.failAhead .invalidNumber
    else
      let (n, count) := addDigits 0 0 c.rest
      let rest := c.skip count
      if rest.startsDigit then
        let more := (rest.rest.takeWhile Char.isDigit).length
        let rest := rest.skip more
        match rest.peek? with
        | some '.' => decimals positive n more rest
        | _ => afterFraction positive n more rest
      else wholeOrMore positive n rest

def skipExponent (c : Cursor) : Except Failure Cursor :=
  let c := c.next
  let c := if c.peek? = some '+' || c.peek? = some '-' then c.next else c
  if c.startsDigit then .ok c.skipDigits else c.failAhead .invalidNumber

def skipNumber (c : Cursor) : Except Failure Cursor := do
  let c ← match c.peek? with
    | some '0' =>
      if c.next.startsDigit then c.next.failAhead .invalidNumber else .ok c.next
    | _ => if c.startsDigit then .ok c.skipDigits else c.failAhead .invalidNumber
  match c.peek? with
  | some '.' =>
    let c := c.next
    if !c.startsDigit then c.failAhead .invalidNumber
    else
      let c := c.skipDigits
      if c.peek? = some 'e' || c.peek? = some 'E' then skipExponent c else pure c
  | some 'e' | some 'E' => skipExponent c
  | _ => pure c

end TypedDecl.Json
