import TypedDecl.Json.Cursor
import TypedDecl.Text.Quoted

namespace TypedDecl.Json

open TypedDecl.Text.Quoted (hexValue?)

def hexCode? : List Char → Option Nat
  | a :: b :: c :: d :: _ => do
    let a ← hexValue? a
    let b ← hexValue? b
    let c ← hexValue? c
    let d ← hexValue? d
    pure (((a * 16 + b) * 16 + c) * 16 + d)
  | _ => none

def hexCode : Reader Nat := fun c =>
  match hexCode? c.rest with
  | some n => .ok (n, c.skip 4)
  | none =>
    if (String.ofList c.rest).utf8ByteSize < 4 then c.failAt 4 .endInString
    else c.failAt 4 .invalidEscape

def isHigh (n : Nat) : Bool := 0xd800 ≤ n && n ≤ 0xdbff

def isLow (n : Nat) : Bool := 0xdc00 ≤ n && n ≤ 0xdfff

/-- The character that two surrogates stand for. -/
def pairChar (high low : Nat) : Char :=
  Char.ofNat ((high - 0xd800) * 0x400 + (low - 0xdc00) + 0x10000)

def codeEscape : Reader Char := fun c => do
  let (n, c) ← hexCode c
  if isLow n then c.failHere .loneSurrogate
  else if !isHigh n then pure (Char.ofNat n, c)
  else
    match c.peek? with
    | none => c.failHere .endInString
    | some '\\' =>
      let c := c.next
      match c.peek? with
      | none => c.failHere .endInString
      | some 'u' => do
        let (m, c) ← hexCode c.next
        if isLow m then pure (pairChar n m, c) else c.failHere .loneSurrogate
      | some _ => c.failAhead .hexEscapeEnd
    | some _ => c.failAhead .hexEscapeEnd

def letterEscape? : Char → Option Char
  | '"' => some '"'
  | '\\' => some '\\'
  | '/' => some '/'
  | 'b' => some '\x08'
  | 'f' => some '\x0c'
  | 'n' => some '\n'
  | 'r' => some '\r'
  | 't' => some '\t'
  | _ => none

def escape : Reader Char := fun c =>
  match c.peek? with
  | none => c.failHere .endInString
  | some 'u' => codeEscape c.next
  | some l =>
    match letterEscape? l with
    | some ch => .ok (ch, c.next)
    | none => c.failAhead .invalidEscape

def stringBody : Nat → Reader (List Char)
  | 0, c => c.failHere .endInString
  | fuel + 1, c =>
    match c.peek? with
    | none => c.failHere .endInString
    | some '"' => .ok ([], c.next)
    | some '\\' =>
      match escape c.next with
      | .error e => .error e
      | .ok (ch, c) => (stringBody fuel c).map fun (cs, c) => (ch :: cs, c)
    | some ch =>
      if ch.toNat < 32 then c.failAhead .controlCharacter
      else (stringBody fuel c.next).map fun (cs, c) => (ch :: cs, c)

def string (more : Nat) : Reader String := fun c =>
  (stringBody more c).map fun (cs, c) => (String.ofList cs, c)

/-- Past an escape whose character is not looked at. -/
def skipEscape (c : Cursor) : Except Failure Cursor :=
  match c.peek? with
  | none => c.failHere .endInString
  | some 'u' => (hexCode c.next).map (·.2)
  | some l => if (letterEscape? l).isSome then .ok c.next else c.failAhead .invalidEscape

def skipString : Nat → Cursor → Except Failure Cursor
  | 0, c => c.failHere .endInString
  | fuel + 1, c =>
    match c.peek? with
    | none => c.failHere .endInString
    | some '"' => .ok c.next
    | some '\\' =>
      match skipEscape c.next with
      | .error e => .error e
      | .ok c => skipString fuel c
    | some ch => if ch.toNat < 32 then c.failHere .controlCharacter else skipString fuel c.next

end TypedDecl.Json
