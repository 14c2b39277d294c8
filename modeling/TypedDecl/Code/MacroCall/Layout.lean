import TypedDecl.Code.Parser
import TypedDecl.Code.Token.Layout

namespace TypedDecl.Code

open TypedDecl.Layout

/-- A row of tokens between two gaps, as a group a level deeper. No tokens leave nothing. -/
def rowBetween (gap : Piece) (matcher : Bool) (ts : List Token) : List Piece :=
  if ts.isEmpty then []
  else group step true (gap :: group 0 false (Token.rowOf matcher ts) ++ [gap.outdented])

namespace MacroCall

/-- The rules of a macro: each has a group to match and a group to write. The last may break off
before the latter. The first argument bounds their number. -/
def rulePieces? : Nat → List Token → Option (List (List Piece))
  | 0, _ => none
  | more + 1, ts =>
    if ts.isEmpty then some []
    else do
      let ((delim, content), ts) ← Parser.anyGroup? ts
      let matched := words delim.opening.toString ++ rowBetween .zero true content.tokens ++
        words delim.closing.toString
      if ts.isEmpty then pure [matched]
      else
        let ts ← Parser.sign? ['=', '>'] ts
        if ts.isEmpty then pure [matched ++ words " =>"]
        else
          let ((_, written), ts) ← Parser.anyGroup? ts
          let ts ← if ts.isEmpty then some ts else Parser.sign? [';'] ts
          let rules ← rulePieces? more ts
          pure ((matched ++ words " => \x7b" ++ .stay :: rowBetween .line false written.tokens ++
            words "\x7d;") :: rules)

def contentPieces (m : MacroCall) : List Piece :=
  rowBetween (if m.inBraces then .line else .zero) false m.content.tokens

def definition? (m : MacroCall) (name : Option Ident) : Option (List Piece) := do
  let i ← name
  if !m.path.isWord "macro_rules" then failure
  let rules ← rulePieces? (m.content.tokens.length + 1) m.content.tokens
  pure (words ("macro_rules! " ++ i.text ++ " \x7b") ++ boxed [] rules ++ words "\x7d")

def pieces (m : MacroCall) (name : Option Ident) (closed : Bool) : List Piece :=
  match m.definition? name with
  | some ps => ps
  | none =>
    words (m.path.text ++ "!") ++
      (match name with
        | none => []
        | some i => words (" " ++ i.text)) ++
      words ((if m.inBraces then " " else "") ++ m.delim.opening.toString) ++ m.contentPieces ++
      words m.delim.closing.toString ++ if closed then words ";" else []

end MacroCall

end TypedDecl.Code
