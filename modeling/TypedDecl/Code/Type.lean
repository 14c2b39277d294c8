import TypedDecl.Code.Attribute

namespace TypedDecl.Code

inductive Const
  | literal (negative : Bool) (text : String)
  | name (i : Ident)
  /-- A block, with its braces. -/
  | block (row : Row)
  deriving DecidableEq, Repr

inductive Capture
  | lifetime (life : Ident)
  | name (i : Ident)
  deriving DecidableEq, Repr

/-- The dots that end the parameters of a function type with any number of arguments. -/
structure Ellipsis where
  attributes : List Attribute
  name : Option Ident
  comma : Bool
  deriving DecidableEq, Repr

mutual

inductive Ty
  | path (path : QualPath)
  | tuple (items : List Ty) (trailing : Bool)
  | paren (inner : Ty)
  | array (item : Ty) (length : Row)
  | slice (item : Ty)
  | never
  | infer
  | pointer (writable : Bool) (target : Ty)
  | reference (life : Option Ident) (writable : Bool) (target : Ty)
  | dynamic (marked : Bool) (bounds : List Bound) (trailing : Bool)
  | abstract (bounds : List Bound) (trailing : Bool)
  | function (binder : Binder) (checked : Bool) (abi : Option (Option String))
      (params : List Param) (trailing : Bool) (rest : Option Ellipsis) (output : Option Ty)
  | macroCall (call : MacroCall)
  /-- A form that only its tokens tell. -/
  | verbatim (row : Row)

inductive Param
  | mk (attributes : List Attribute) (name : Option Ident) (ty : Ty)

inductive QualPath
  | plain (path : Path)
  /-- What a type has, by way of a trait or on its own. -/
  | projected (self : Ty) (via : Option Path) (rest : List Segment)

inductive Path
  | mk (global : Bool) (segments : List Segment)

inductive Segment
  | mk (name : Ident) (args : Args)

inductive Args
  | none
  | angle (colons : Bool) (items : List Arg) (trailing : Bool)
  | call (inputs : List Ty) (trailing : Bool) (output : Option Ty)

inductive Arg
  | lifetime (life : Ident)
  | type (ty : Ty)
  | constant (value : Const)
  | binding (name : Ident) (args : Args) (ty : Ty)
  | constBinding (name : Ident) (args : Args) (value : Const)
  | constraint (name : Ident) (args : Args) (bounds : List Bound) (trailing : Bool)

inductive Bound
  | lifetime (life : Ident)
  | trait (parens : Bool) (binder : Binder) (optional : Bool) (path : Path)
  | captures (params : List Capture) (trailing : Bool)
  /-- A form that only its tokens tell. -/
  | verbatim (row : Row)

/-- The words `for<…>` that bind generic parameters. -/
inductive Binder
  | none
  | mk (params : List Generic) (trailing : Bool)

inductive Generic
  | lifetime (attributes : List Attribute) (life : Ident) (bounds : List Ident) (trailing : Bool)
  | type (attributes : List Attribute) (name : Ident) (bounds : List Bound) (trailing : Bool)
      (fallback : Option Ty)
  | constant (attributes : List Attribute) (name : Ident) (ty : Ty) (fallback : Option Const)

end

namespace Capture

def isLifetime : Capture → Bool
  | lifetime _ => true
  | name _ => false

end Capture

namespace Arg

def isLifetime : Arg → Bool
  | lifetime _ => true
  | _ => false

end Arg

namespace Generic

def isLifetime : Generic → Bool
  | lifetime .. => true
  | _ => false

end Generic

namespace Args

def isNone : Args → Bool
  | none => true
  | _ => false

/-- Whether nothing is given, be it in angle brackets. -/
def isEmpty : Args → Bool
  | none => true
  | angle _ items _ => items.isEmpty
  | call .. => false

end Args

namespace Segment

def name : Segment → Ident
  | mk i _ => i

def args : Segment → Args
  | mk _ args => args

end Segment

namespace Path

def global : Path → Bool
  | mk g _ => g

def segments : Path → List Segment
  | mk _ ss => ss

/-- The names of a path whose segments have no arguments. -/
def plain? (p : Path) : Option PlainPath :=
  if p.segments.all (·.args.isNone) then some ⟨p.global, p.segments.map Segment.name⟩ else none

def name? (p : Path) : Option Ident :=
  match p.plain? with
  | some ⟨false, [i]⟩ => some i
  | _ => none

def withArgs (p : Path) (args : Args) : Path :=
  match p.segments.getLast? with
  | some s => mk p.global (p.segments.dropLast ++ [.mk s.name args])
  | none => p

end Path

namespace QualPath

def name? : QualPath → Option Ident
  | plain p => p.name?
  | projected .. => none

end QualPath

namespace Bound

def isLifetime : Bound → Bool
  | lifetime _ => true
  | _ => false

def standsAlone : Bound → Bool
  | trait .. | verbatim _ => true
  | lifetime _ | captures .. => false

def parenthesized : Bound → Bound
  | trait _ binder optional path => trait true binder optional path
  | b => b

end Bound

namespace Ty

/-- A path as a bare bound, and a bare object of one bound as that bound. -/
def asBound? : Ty → Option Bound
  | path (.plain p) => some (.trait false .none false p)
  | dynamic false [bound] false => some bound
  | _ => none

/-- The name and the arguments of a path that is a single segment, if they are not in
parentheses. -/
def soleSegment? : Ty → Option (Ident × Args)
  | path (.plain (.mk false [.mk _ (.call ..)])) => none
  | path (.plain (.mk false [.mk i args])) => some (i, args)
  | _ => none

end Ty

end TypedDecl.Code
