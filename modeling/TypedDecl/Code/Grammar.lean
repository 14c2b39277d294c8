import TypedDecl.Code.Expr.Tokens
import TypedDecl.Code.Item

namespace TypedDecl.Code

/-- What may stand among bounds besides traits and lifetimes: what an opaque type captures, and
traits marked as constant. -/
structure BoundKinds where
  captures : Bool
  marks : Bool
  deriving DecidableEq, Repr

namespace BoundKinds

def object : BoundKinds := ⟨false, false⟩

def parameter : BoundKinds := ⟨false, true⟩

def hidden : BoundKinds := ⟨true, true⟩

end BoundKinds

structure Grammar where
  /-- Bounds the number of items in any list. -/
  more : Nat
  bound : BoundKinds → Parser Bound
  /-- A type. Bounds may be added to a bare path everywhere but behind a pointer, a reference, an
  arrow or a cast; the flag tells whether they may. -/
  ty : Bool → Parser Ty
  pat : Parser Pat
  /-- An expression. A structure cannot stand in a condition; the flag tells whether it can here.
  All operators bind at least as tightly as the number tells. -/
  expr : Bool → Nat → Parser Expr
  /-- An expression as a statement or the body of an arm, which control flow or a block can end. -/
  early : Parser Expr
  block : Bool → Parser Block
  item : Parser Item

namespace Grammar

def none (more : Nat) : Grammar where
  more
  bound _ _ := .none
  ty _ _ := .none
  pat _ := .none
  expr _ _ _ := .none
  early _ := .none
  block _ _ := .none
  item _ := .none

def value (g : Grammar) : Parser Expr := g.expr true 0

def valueRow (g : Grammar) : Parser Row := fun ts => do
  let (e, ts) ← g.value ts
  let row ← Row.of? e.tokens
  pure (row, ts)

end Grammar

end TypedDecl.Code
