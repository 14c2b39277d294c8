import TypedDecl.Code.Expr
import TypedDecl.Code.Literal

namespace TypedDecl.Code.Expr

/-- A name that takes no more room than a level of indentation. -/
def isShortName : Expr → Bool
  | path p =>
    match p.name? with
    | some i => i.text.utf8ByteSize ≤ 4
    | none => false
  | _ => false

/-- Literals that many of go on a line. -/
def isSmall (e : Expr) : Bool :=
  match e.bare with
  | literal text =>
    match text.toList with
    | '\'' :: _ | 'b' :: '\'' :: _ => true
    | _ => Literal.isNumber text && !Literal.isFraction text || text = "true" || text = "false"
  | _ => false

/-- What opens and closes like a block and, as the only argument, needs no lines of its own. -/
def isBlocklike : Expr → Bool
  | tuple .. | array .. | record .. | closure .. => true
  | block _ kind _ => kind ≠ .trying
  | _ => false

/-- Whether an expression may stand behind the parameters of a closure as it is. -/
def isClosureBody : Expr → Bool
  | choice .. | call .. => true
  | e => e.isBlocklike

/-- An assignment or a jump, which has a semicolon as a statement even if none is given. -/
def addsSemicolon (e : Expr) : Bool :=
  match e.bare with
  | assign .. | jump .. => true
  | binary op _ _ => Operator.stores op
  | _ => false

/-- A loop or a branch without a value, which has no semicolon even if one is given. -/
def dropsSemicolon : Expr → Bool
  | attributed _ e => dropsSemicolon e
  | forLoop .. | whileLoop .. | branch _ _ none => true
  | branch _ _ (some other) => dropsSemicolon other
  | _ => false

/-- Whether an expression can be a statement as it is: no part that ends itself begins it and goes
on with an operator. -/
def canBeStatement : Expr → Bool
  | attributed _ e => canBeStatement e
  | assign left _ | binary _ left _ | call left _ _ | cast left _ | index left _
  | range (some left) _ _ => !left.endsItself && canBeStatement left
  | await e | field e _ | method e _ _ _ _ | attempt e => canBeStatement e
  | _ => true

/-- Whether the brace behind a condition has a line of its own where the condition does not fit: the
condition ends with an operand or with the link of a chain. -/
def wraps : Expr → Bool
  | attributed _ e => wraps e
  | assign .. | await _ | binary .. | cast .. | field .. | index .. | method .. => true
  | jump _ _ (some e) | call e _ _ | binds _ e | paren e | range _ _ (some e) | address _ e
  | borrow _ e | attempt e | unary _ e => wraps e
  | _ => false

/-- The expression that a block consists of, or the expression itself. -/
def core : Expr → Expr
  | block none .plain (.mk [] [.expr value false]) => core value
  | e => e

end TypedDecl.Code.Expr
