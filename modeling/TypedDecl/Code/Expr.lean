import TypedDecl.Code.Pattern

namespace TypedDecl.Code

inductive BlockKind
  | plain
  | unchecked
  | constant
  | async (moving : Bool)
  | trying
  deriving DecidableEq, Repr

/-- Words that leave the place they stand in, some with a label or a value. -/
inductive Jump
  | breaking
  | continuing
  | returning
  | yielding
  deriving DecidableEq, Repr

namespace Jump

def text : Jump → String
  | breaking => "break"
  | continuing => "continue"
  | returning => "return"
  | yielding => "yield"

end Jump

structure Input where
  attributes : List Attribute
  pat : Pat
  ty : Option Ty

/-- What stands before the body of a closure. -/
structure ClosureHead where
  binder : Binder
  constant : Bool
  pinned : Bool
  async : Bool
  moving : Bool
  inputs : List Input
  trailing : Bool
  output : Option Ty

mutual

inductive Expr
  | literal (text : String)
  | path (path : QualPath)
  | infer
  /-- An expression with something said in front of it. -/
  | attributed (attributes : List Attribute) (inner : Expr)
  | unary (op : Char) (operand : Expr)
  | borrow (writable : Bool) (operand : Expr)
  /-- A raw pointer to a place. -/
  | address (writable : Bool) (operand : Expr)
  | paren (inner : Expr)
  | tuple (items : List Expr) (trailing : Bool)
  | array (items : List Expr) (trailing : Bool)
  | repeated (item : Expr) (length : Expr)
  | call (function : Expr) (args : List Expr) (trailing : Bool)
  | method (receiver : Expr) (name : Ident) (generics : Args) (args : List Expr) (trailing : Bool)
  | field (base : Expr) (member : FieldName)
  | await (base : Expr)
  | index (base : Expr) (position : Expr)
  | attempt (operand : Expr)
  | cast (operand : Expr) (ty : Ty)
  | binary (op : List Char) (left : Expr) (right : Expr)
  | assign (left : Expr) (right : Expr)
  | range (first : Option Expr) (closed : Bool) (last : Option Expr)
  /-- A structure; `dots` tells whether the fields end with dots, and `base` is what the other
  fields are taken from. -/
  | record (path : QualPath) (fields : List FieldValue) (trailing : Bool) (dots : Bool)
      (base : Option Expr)
  | macroCall (call : MacroCall)
  | block (label : Option Ident) (kind : BlockKind) (body : Block)
  | branch (condition : Expr) (body : Block) (other : Option Expr)
  | choice (subject : Expr) (inner : List Attribute) (arms : List Arm)
  | whileLoop (label : Option Ident) (condition : Expr) (body : Block)
  | forLoop (label : Option Ident) (pat : Pat) (source : Expr) (body : Block)
  | endlessLoop (label : Option Ident) (body : Block)
  /-- A condition that binds what a value is taken apart into. -/
  | binds (pat : Pat) (value : Expr)
  | closure (head : ClosureHead) (body : Expr)
  | jump (kind : Jump) (label : Option Ident) (value : Option Expr)
  /-- A form that only its tokens tell. -/
  | verbatim (row : List Token)

/-- A field of a structure: one without a value stands for the variable of its name. -/
inductive FieldValue
  | mk (attributes : List Attribute) (member : FieldName) (value : Option Expr)

inductive Arm
  | mk (attributes : List Attribute) (pat : Pat) (guard : Option Expr) (body : Expr)
      (comma : Bool)

inductive Block
  | mk (inner : List Attribute) (statements : List Stmt)

inductive Stmt
  | empty
  | bind (attributes : List Attribute) (pat : Pat) (ty : Option Ty) (value : Option Expr)
      (otherwise : Option Block)
  | item (row : List Token)
  | expr (value : Expr) (closed : Bool)
  | macroCall (attributes : List Attribute) (call : MacroCall) (closed : Bool)

end

namespace Block

def inner : Block → List Attribute
  | mk inner _ => inner

def statements : Block → List Stmt
  | mk _ statements => statements

end Block

namespace Expr

def attributes : Expr → List Attribute
  | attributed as _ => as
  | _ => []

def bare : Expr → Expr
  | attributed _ e => e
  | e => e

def withAttributes (as : List Attribute) (e : Expr) : Expr :=
  if as.isEmpty then e else attributed (as ++ e.attributes) e.bare

/-- Says something in front of the operand that begins an expression. -/
def attach (as : List Attribute) : Expr → Expr
  | assign left right => assign (left.attach as) right
  | binary op left right => binary op (left.attach as) right
  | cast operand ty => cast (operand.attach as) ty
  | e => e.withAttributes as

/-- Control flow and blocks, which end a statement or an arm on their own. -/
def endsItself (e : Expr) : Bool :=
  match e.bare with
  | branch .. | choice .. | whileLoop .. | forLoop .. | endlessLoop .. => true
  | block _ (.async _) _ => false
  | block .. => true
  | _ => false

def closesStatement (e : Expr) : Bool :=
  match e.bare with
  | macroCall m => m.inBraces
  | _ => e.endsItself

end Expr

def Operator.strength (op : List Char) : Nat :=
  match String.ofList op with
  | "||" => 3
  | "&&" => 4
  | "==" | "!=" | "<" | ">" | "<=" | ">=" => 6
  | "|" => 7
  | "^" => 8
  | "&" => 9
  | "<<" | ">>" => 10
  | "+" | "-" => 11
  | "*" | "/" | "%" => 12
  | _ => 1

namespace Strength

/-- That of the operators that store a value. -/
def assigning : Nat := 1

/-- That of the two ranges. -/
def ranging : Nat := 2

def comparing : Nat := 6

end Strength

namespace Operator

/-- The operators with two operands; the longer of two that begin alike comes first. -/
def all : List (List Char) :=
  [['<', '<', '='], ['>', '>', '='], ['+', '='], ['-', '='], ['*', '='], ['/', '='], ['%', '='],
   ['^', '='], ['&', '='], ['|', '='], ['&', '&'], ['|', '|'], ['<', '<'], ['>', '>'],
   ['=', '='], ['<', '='], ['!', '='], ['>', '='], ['+'], ['-'], ['*'], ['/'], ['%'], ['^'],
   ['&'], ['|'], ['<'], ['>']]

def stores (op : List Char) : Bool := strength op = Strength.assigning

end Operator

end TypedDecl.Code
