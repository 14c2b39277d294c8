import TypedDecl.Code.Type.Tokens

namespace TypedDecl.Code.Token

theorem nest_append (a b : List Token) (stack : List Delim) :
    nest stack (a ++ b) = (nest stack a).bind fun stack => nest stack b := by
  induction a generalizing stack with
  | nil => rfl
  | cons t ts ih =>
    simp only [List.cons_append, nest, Option.bind_assoc]
    exact congrArg _ (funext fun s => ih s)

/-- A step does not look below the delimiters that it needs. -/
theorem nestStep_below {t : Token} {stack after : List Delim} (h : t.nestStep stack = some after)
    (below : List Delim) : t.nestStep (stack ++ below) = some (after ++ below) := by
  cases t with
  | opening d => cases h; rfl
  | closing d =>
    cases stack with
    | nil => cases h
    | cons top stack =>
      simp only [nestStep, List.cons_append] at h ⊢
      split at h <;> simp_all
  | ident i => cases h; rfl
  | punct c joint => cases h; rfl
  | literal text => cases h; rfl

theorem nest_below {ts : List Token} {stack after : List Delim} (h : nest stack ts = some after)
    (below : List Delim) : nest (stack ++ below) ts = some (after ++ below) := by
  induction ts generalizing stack with
  | nil => cases h; rfl
  | cons t ts ih =>
    obtain ⟨next, hs, ht⟩ := Option.bind_eq_some_iff.mp h
    rw [nest, nestStep_below hs below]
    exact ih ht

namespace Closed

theorem nest {ts : List Token} (h : Closed ts) (stack : List Delim) :
    Token.nest stack ts = some stack := nest_below h stack

@[simp] theorem nil : Closed [] := rfl

@[simp] theorem append_iff {a b : List Token} (ha : Closed a) : Closed (a ++ b) ↔ Closed b := by
  rw [Closed, nest_append, ha.nest]
  rfl

theorem append {a b : List Token} (ha : Closed a) (hb : Closed b) : Closed (a ++ b) :=
  (append_iff ha).mpr hb

@[simp] theorem cons_ident (i : Ident) {ts : List Token} :
    Closed (.ident i :: ts) ↔ Closed ts := .rfl

@[simp] theorem cons_word (w : String) {ts : List Token} : Closed (word w :: ts) ↔ Closed ts := .rfl

@[simp] theorem cons_literal (text : String) {ts : List Token} :
    Closed (.literal text :: ts) ↔ Closed ts := .rfl

@[simp] theorem cons_punct (c : Char) (joint : Bool) {ts : List Token} :
    Closed (.punct c joint :: ts) ↔ Closed ts := .rfl

@[simp] theorem group (d : Delim) {ts : List Token} (h : Closed ts) :
    Closed (Token.group d ts) := by
  have inside : Token.nest [d] (ts ++ [.closing d]) = some [] := by
    rw [nest_append, h.nest]
    simp [Token.nest, nestStep]
  exact inside

@[simp] theorem operator (cs : List Char) : Closed (operator cs) := by
  fun_induction Token.operator cs with
  | case1 => exact nil
  | case2 c => simp
  | case3 c d cs ih => simpa using ih

@[simp] theorem lifetime (i : Ident) : Closed (Token.lifetime i) := by
  simp [Token.lifetime]

theorem flatMap {α : Type} {f : α → List Token} {xs : List α} (h : ∀ x ∈ xs, Closed (f x)) :
    Closed (xs.flatMap f) := by
  induction xs with
  | nil => exact nil
  | cons x xs ih =>
    rw [List.flatMap_cons]
    exact append (h x List.mem_cons_self) (ih fun y hy => h y (List.mem_cons_of_mem x hy))

theorem intersperse {sep : List Token} (hs : Closed sep) {rows : List (List Token)}
    (h : ∀ r ∈ rows, Closed r) : Closed (rows.intersperse sep).flatten := by
  induction rows with
  | nil => exact nil
  | cons r rows ih =>
    have first : Closed r := h r List.mem_cons_self
    have others := ih fun a ha => h a (List.mem_cons_of_mem r ha)
    cases rows with
    | nil => simpa using first
    | cons a rows =>
      rw [List.intersperse_cons_cons, List.flatten_cons, List.flatten_cons]
      exact append first (append hs others)

end Closed

end Token

open Token (Closed)

@[simp] theorem Row.closed_tokens (r : Row) : Closed r.tokens := r.closed

@[simp] theorem PlainPath.closed_tokens (p : PlainPath) : Closed p.tokens := by
  have names : ∀ r ∈ p.names.map fun i => [Token.ident i], Closed r := by
    intro r hr
    obtain ⟨i, _, rfl⟩ := List.mem_map.mp hr
    simp
  have sign : Closed colons := Closed.operator _
  have list := Closed.intersperse sign names
  unfold PlainPath.tokens
  split <;> simp [sign, list]

@[simp] theorem MacroCall.closed_tokens (m : MacroCall) : Closed m.tokens := by
  simp [MacroCall.tokens]

@[simp] theorem AttributeBody.closed_tokens (b : AttributeBody) : Closed b.tokens := by
  cases b <;> simp [AttributeBody.tokens]

@[simp] theorem Attribute.closed_listTokens (attributes : List Attribute) :
    Closed (listTokens attributes) := by
  apply Closed.flatMap
  intro a _
  unfold Attribute.tokens
  split <;> simp

@[simp] theorem closed_literalTokens (negative : Bool) (text : String) :
    Closed (literalTokens negative text) := by
  unfold literalTokens
  split <;> split <;> simp

@[simp] theorem Const.closed_tokens (c : Const) : Closed c.tokens := by
  cases c <;> simp [Const.tokens]

@[simp] theorem closed_abiTokens (abi : Option (Option String)) : Closed (abiTokens abi) := by
  unfold abiTokens
  split <;> simp

@[simp] theorem closed_signIf (sign : List Char) (b : Bool) : Closed (signIf sign b) := by
  cases b <;> simp [signIf]

@[simp] theorem closed_commaIf (b : Bool) : Closed (commaIf b) := closed_signIf [','] b

@[simp] theorem closed_wordIf (w : String) (b : Bool) : Closed (wordIf w b) := by
  cases b <;> simp [wordIf]

@[simp] theorem Ellipsis.closed_tokens (e : Ellipsis) : Closed e.tokens := by
  unfold Ellipsis.tokens
  split <;> simp

/-- Lifetimes move to the front of a list, and every item stays whole. -/
theorem closed_arrange {items : List ListedTokens} (h : ∀ a ∈ items, Closed a.2.1) :
    Closed (arrange items) := by
  have some_of (p : ListedTokens → Bool) :
      Closed ((items.filter p).flatMap fun a => a.2.1 ++ commaIf a.2.2) := by
    apply Closed.flatMap
    intro a ha
    exact (h a (List.mem_filter.mp ha).1).append (closed_commaIf a.2.2)
  exact ((some_of _).append (closed_commaIf _)).append (some_of _)

theorem Capture.closed_listTokens (cs : List Capture) (trailing : Bool) :
    ∀ a ∈ Capture.listTokens cs trailing, Closed a.2.1 := by
  have one (c : Capture) : Closed c.tokens := by
    cases c <;> simp [Capture.tokens]
  fun_induction Capture.listTokens cs trailing with
  | case1 => simp
  | case2 c => simp [one]
  | case3 c cs _ _ ih => simpa [one] using ih

@[simp] theorem closed_boundTokens {bounds : List Token} (h : Closed bounds) (trailing : Bool) :
    Closed (boundTokens bounds trailing) := by
  unfold boundTokens
  split <;> simp [h]

@[simp] theorem closed_lifetimes (lives : List Ident) :
    Closed (parted ['+'] (lives.map Token.lifetime)) := by
  apply Closed.intersperse (Closed.operator _)
  intro r hr
  obtain ⟨i, _, rfl⟩ := List.mem_map.mp hr
  exact Closed.lifetime i

@[simp] theorem closed_beforeEllipsis {params : List Token} (h : Closed params) (trailing : Bool)
    (rest : Option Ellipsis) : Closed (beforeEllipsis params trailing rest) := by
  unfold beforeEllipsis
  split <;> simp [h]

mutual

@[simp] theorem Ty.closed_tokens : ∀ ty : Ty, Closed ty.tokens
  | .path path => by simp [Ty.tokens, path.closed_tokens]
  | .tuple items trailing => by simp [Ty.tokens, Ty.closed_listTokens items]
  | .paren inner => by simp [Ty.tokens, inner.closed_tokens]
  | .array item length => by simp [Ty.tokens, item.closed_tokens]
  | .slice item => by simp [Ty.tokens, item.closed_tokens]
  | .never => by simp [Ty.tokens]
  | .infer => by simp [Ty.tokens]
  | .pointer writable target => by simp [Ty.tokens, target.closed_tokens]
  | .reference life writable target => by
    cases life <;> simp [Ty.tokens, target.closed_tokens]
  | .dynamic marked bounds trailing => by simp [Ty.tokens, Bound.closed_listTokens bounds]
  | .abstract bounds trailing => by simp [Ty.tokens, Bound.closed_listTokens bounds]
  | .function binder checked abi params trailing rest none => by
    have inside := closed_beforeEllipsis (Param.closed_listTokens params) trailing rest
    simp [Ty.tokens, binder.closed_tokens, inside]
  | .function binder checked abi params trailing rest (some output) => by
    have inside := closed_beforeEllipsis (Param.closed_listTokens params) trailing rest
    simp [Ty.tokens, binder.closed_tokens, inside, output.closed_tokens]
  | .macroCall call => by simp [Ty.tokens]
  | .verbatim row => by simp [Ty.tokens]

theorem Ty.closed_listTokens : ∀ tys : List Ty, Closed (Ty.listTokens tys)
  | [] => by simp [Ty.listTokens]
  | [ty] => by simp [Ty.listTokens, ty.closed_tokens]
  | ty :: next :: tys => by
    simp [Ty.listTokens, ty.closed_tokens, Ty.closed_listTokens (next :: tys)]

theorem Param.closed_tokens : ∀ param : Param, Closed param.tokens
  | .mk attributes none ty => by simp [Param.tokens, ty.closed_tokens]
  | .mk attributes (some i) ty => by simp [Param.tokens, ty.closed_tokens]

theorem Param.closed_listTokens : ∀ params : List Param, Closed (Param.listTokens params)
  | [] => by simp [Param.listTokens]
  | [param] => by simp [Param.listTokens, param.closed_tokens]
  | param :: next :: params => by
    simp [Param.listTokens, param.closed_tokens, Param.closed_listTokens (next :: params)]

theorem QualPath.closed_tokens : ∀ path : QualPath, Closed path.tokens
  | .plain path => by simp [QualPath.tokens, path.closed_tokens]
  | .projected self none rest => by
    simp [QualPath.tokens, self.closed_tokens, Segment.closed_listTokens true rest]
  | .projected self (some via) rest => by
    simp [QualPath.tokens, self.closed_tokens, via.closed_tokens,
      Segment.closed_listTokens true rest]

@[simp] theorem Path.closed_tokens : ∀ path : Path, Closed path.tokens
  | .mk global segments => by simp [Path.tokens, Segment.closed_listTokens global segments]

theorem Segment.closed_listTokens :
    ∀ (lead : Bool) (segments : List Segment), Closed (Segment.listTokens lead segments)
  | lead, [] => by simp [Segment.listTokens]
  | lead, segment :: segments => by
    simp [Segment.listTokens, segment.closed_tokens, Segment.closed_listTokens true segments]

theorem Segment.closed_tokens : ∀ segment : Segment, Closed segment.tokens
  | .mk i args => by simp [Segment.tokens, args.closed_tokens]

theorem Args.closed_tokens : ∀ args : Args, Closed args.tokens
  | .none => by simp [Args.tokens]
  | .angle colons items trailing => by
    simp [Args.tokens, closed_arrange (Arg.closed_listTokens items trailing)]
  | .call inputs trailing none => by simp [Args.tokens, Ty.closed_listTokens inputs]
  | .call inputs trailing (some output) => by
    have inside := (Ty.closed_listTokens inputs).append (closed_commaIf trailing)
    simp [Args.tokens, inside, output.closed_tokens]

theorem Arg.closed_tokens : ∀ arg : Arg, Closed arg.tokens
  | .lifetime life => by simp [Arg.tokens]
  | .type ty => by simp [Arg.tokens, ty.closed_tokens]
  | .constant value => by simp [Arg.tokens]
  | .binding i args ty => by simp [Arg.tokens, args.closed_tokens, ty.closed_tokens]
  | .constBinding i args value => by simp [Arg.tokens, args.closed_tokens]
  | .constraint i args bounds trailing => by
    simp [Arg.tokens, args.closed_tokens, Bound.closed_listTokens bounds]

theorem Arg.closed_listTokens : ∀ (args : List Arg) (trailing : Bool),
    ∀ a ∈ Arg.listTokens args trailing, Closed a.2.1
  | [], trailing => by simp [Arg.listTokens]
  | [arg], trailing => by simpa [Arg.listTokens] using arg.closed_tokens
  | arg :: next :: args, trailing => by
    have others := Arg.closed_listTokens (next :: args) trailing
    simpa [Arg.listTokens, arg.closed_tokens] using others

theorem Bound.closed_tokens : ∀ bound : Bound, Closed bound.tokens
  | .lifetime life => by simp [Bound.tokens]
  | .trait true binder optional path => by
    simp [Bound.tokens, binder.closed_tokens, path.closed_tokens]
  | .trait false binder optional path => by
    simp [Bound.tokens, binder.closed_tokens, path.closed_tokens]
  | .captures params trailing => by
    simp [Bound.tokens, closed_arrange (Capture.closed_listTokens params trailing)]
  | .verbatim row => by simp [Bound.tokens]

theorem Bound.closed_listTokens : ∀ bounds : List Bound, Closed (Bound.listTokens bounds)
  | [] => by simp [Bound.listTokens]
  | [bound] => by simp [Bound.listTokens, bound.closed_tokens]
  | bound :: next :: bounds => by
    simp [Bound.listTokens, bound.closed_tokens, Bound.closed_listTokens (next :: bounds)]

theorem Binder.closed_tokens : ∀ binder : Binder, Closed binder.tokens
  | .none => by simp [Binder.tokens]
  | .mk params trailing => by simp [Binder.tokens, Generic.closed_listTokens params]

theorem Generic.closed_tokens : ∀ param : Generic, Closed param.tokens
  | .lifetime attributes life bounds trailing => by
    have bounded := closed_boundTokens (closed_lifetimes bounds) trailing
    simp [Generic.tokens, bounded]
  | .type attributes i bounds trailing none => by
    simp [Generic.tokens, Bound.closed_listTokens bounds]
  | .type attributes i bounds trailing (some fallback) => by
    simp [Generic.tokens, Bound.closed_listTokens bounds, fallback.closed_tokens]
  | .constant attributes i ty none => by simp [Generic.tokens, ty.closed_tokens]
  | .constant attributes i ty (some value) => by
    simp [Generic.tokens, ty.closed_tokens]

theorem Generic.closed_listTokens : ∀ params : List Generic, Closed (Generic.listTokens params)
  | [] => by simp [Generic.listTokens]
  | [param] => by simp [Generic.listTokens, param.closed_tokens]
  | param :: next :: params => by
    simp [Generic.listTokens, param.closed_tokens, Generic.closed_listTokens (next :: params)]

end

end TypedDecl.Code
