import TypedDecl.Declaration.Spelling

namespace TypedDecl.Code

open Token (operator word)

namespace Token

/-- Whether two colons behind a token go on with its path. -/
def goesOn : Option Token → Bool
  | some (.ident _) | some (.punct '>' _) => true
  | _ => false

/-- Whether a name behind a token can begin a path: it is no part of a value and no lifetime. -/
def canBegin : Option Token → Bool
  | some (.punct '.' _) | some (.punct '\'' _) => false
  | _ => true

/-- The names that can begin paths in a row that is kept as it is, given the token before it. What
else a name in such a row may be, its tokens do not tell. -/
def headsFrom : Option Token → List Token → List Ident
  | _, [] => []
  | before, .punct ':' true :: .punct ':' _ :: .ident i :: ts =>
    (if goesOn before then [] else [i]) ++ headsFrom (some (.ident i)) ts
  | before, .ident i :: ts =>
    (if i.isName && canBegin before then [i] else []) ++ headsFrom (some (.ident i)) ts
  | _, t :: ts => headsFrom (some t) ts

def heads (ts : List Token) : List Ident := headsFrom none ts

end Token

namespace Const

def heads : Const → List Ident
  | literal _ _ => []
  | name i => [i]
  | block row => Token.heads row.tokens

end Const

/-- The names in the attributes of the dots that end parameters. -/
def Ellipsis.heads : Option Ellipsis → List Ident
  | none => []
  | some e => Token.heads (Attribute.listTokens e.attributes)

mutual

/-- The first name of each path in a type. -/
def Ty.heads : Ty → List Ident
  | .path path => path.heads
  | .tuple items _ => Ty.listHeads items
  | .paren inner => inner.heads
  | .array item length => item.heads ++ Token.heads length.tokens
  | .slice item => item.heads
  | .never => []
  | .infer => []
  | .pointer _ target => target.heads
  | .reference _ _ target => target.heads
  | .dynamic _ bounds _ => Bound.listHeads bounds
  | .abstract bounds _ => Bound.listHeads bounds
  | .function binder _ _ params _ rest output =>
    binder.heads ++ (Param.listHeads params ++ Ellipsis.heads rest) ++
      (match output with
        | none => []
        | some ty => ty.heads)
  | .macroCall call => call.path.names.take 1 ++ Token.heads call.content.tokens
  | .verbatim row => Token.heads row.tokens

def Ty.listHeads : List Ty → List Ident
  | [] => []
  | ty :: tys => ty.heads ++ Ty.listHeads tys

def Param.heads : Param → List Ident
  | .mk attributes _ ty => Token.heads (Attribute.listTokens attributes) ++ ty.heads

def Param.listHeads : List Param → List Ident
  | [] => []
  | param :: params => param.heads ++ Param.listHeads params

def QualPath.heads : QualPath → List Ident
  | .plain path => path.heads
  | .projected self via rest =>
    self.heads ++
      (match via with
        | none => []
        | some path => path.heads) ++
      Segment.listHeads rest

def Path.heads : Path → List Ident
  | .mk _ segments => (segments.map Segment.name).take 1 ++ Segment.listHeads segments

/-- The first names of the paths in the arguments of segments. -/
def Segment.listHeads : List Segment → List Ident
  | [] => []
  | segment :: segments => segment.heads ++ Segment.listHeads segments

def Segment.heads : Segment → List Ident
  | .mk _ args => args.heads

def Args.heads : Args → List Ident
  | .none => []
  | .angle _ items _ => Arg.listHeads items
  | .call inputs _ output =>
    Ty.listHeads inputs ++
      (match output with
        | none => []
        | some ty => ty.heads)

def Arg.heads : Arg → List Ident
  | .lifetime _ => []
  | .type ty => ty.heads
  | .constant value => value.heads
  | .binding _ args ty => args.heads ++ ty.heads
  | .constBinding _ args value => args.heads ++ value.heads
  | .constraint _ args bounds _ => args.heads ++ Bound.listHeads bounds

def Arg.listHeads : List Arg → List Ident
  | [] => []
  | arg :: args => arg.heads ++ Arg.listHeads args

def Bound.heads : Bound → List Ident
  | .lifetime _ => []
  | .trait _ binder _ path => binder.heads ++ path.heads
  | .captures _ _ => []
  | .verbatim row => Token.heads row.tokens

def Bound.listHeads : List Bound → List Ident
  | [] => []
  | bound :: bounds => bound.heads ++ Bound.listHeads bounds

def Binder.heads : Binder → List Ident
  | .none => []
  | .mk params _ => Generic.listHeads params

def Generic.heads : Generic → List Ident
  | .lifetime attributes _ _ _ => Token.heads (Attribute.listTokens attributes)
  | .type attributes _ bounds _ fallback =>
    Token.heads (Attribute.listTokens attributes) ++ Bound.listHeads bounds ++
      (match fallback with
        | none => []
        | some ty => ty.heads)
  | .constant attributes _ ty fallback =>
    Token.heads (Attribute.listTokens attributes) ++ ty.heads ++
      (match fallback with
        | none => []
        | some value => value.heads)

def Generic.listHeads : List Generic → List Ident
  | [] => []
  | param :: params => param.heads ++ Generic.listHeads params

end

/-- All of the identifiers stand in a row. -/
def Within (is : List Ident) (ts : List Token) : Prop := ∀ i ∈ is, Token.ident i ∈ ts

namespace Within

variable {a b : List Ident} {x y : List Token}

theorem nil : Within [] x := nofun

theorem append (ha : Within a x) (hb : Within b x) : Within (a ++ b) x := by
  intro i mem
  rcases List.mem_append.mp mem with first | second
  · exact ha i first
  · exact hb i second

theorem left (h : Within a x) : Within a (x ++ y) := by
  intro i mem
  exact List.mem_append_left y (h i mem)

theorem right (h : Within a y) : Within a (x ++ y) := by
  intro i mem
  exact List.mem_append_right x (h i mem)

theorem tail {t : Token} (h : Within a x) : Within a (t :: x) := by
  intro i mem
  exact List.mem_cons_of_mem t (h i mem)

theorem group {d : Delim} (h : Within a x) : Within a (Token.group d x) := h.left.tail

theorem head {i : Ident} : Within [i] (.ident i :: x) := by
  intro j mem
  rw [List.mem_singleton.mp mem]
  exact List.mem_cons_self

end Within

theorem Token.within_headsFrom (before : Option Token) (ts : List Token) :
    Within (headsFrom before ts) ts := by
  fun_induction headsFrom before ts with
  | case1 => exact .nil
  | case2 before joint j ts ih =>
    apply Within.append
    · split
      · exact .nil
      · exact Within.head.tail.tail
    · exact ih.tail.tail.tail
  | case3 before j ts ih =>
    apply Within.append
    · split
      · exact .head
      · exact .nil
    · exact ih.tail
  | case4 before t ts _ _ ih => exact ih.tail

theorem Token.within_heads (ts : List Token) : Within (heads ts) ts := within_headsFrom none ts

/-- Lists of arguments are put in order, and every item of them stays whole. -/
theorem within_arrange {items : List ListedTokens} {is : List Ident}
    (h : ∀ i ∈ is, ∃ a ∈ items, Token.ident i ∈ a.2.1) : Within is (arrange items) := by
  intro i mem
  obtain ⟨a, ha, inside⟩ := h i mem
  have some_of (p : ListedTokens → Bool) (hp : p a = true) :
      Token.ident i ∈ (items.filter p).flatMap fun a => a.2.1 ++ commaIf a.2.2 := by
    rw [List.mem_flatMap]
    exact ⟨a, List.mem_filter.mpr ⟨ha, hp⟩, List.mem_append_left _ inside⟩
  simp only [arrange, List.mem_append]
  cases life : a.1 with
  | true => exact .inl (.inl (some_of (·.1) life))
  | false => exact .inr (some_of (!·.1) (by rw [life]; rfl))

theorem Const.within_heads : ∀ c : Const, Within c.heads c.tokens
  | .literal _ _ => .nil
  | .name _ => .head
  | .block row => Token.within_heads row.tokens

theorem PlainPath.within_first (p : PlainPath) : Within (p.names.take 1) p.tokens := by
  obtain ⟨global, names⟩ := p
  cases names with
  | nil => exact .nil
  | cons i is =>
    rw [tokens]
    apply Within.right
    cases is <;> simp [Within]

theorem within_boundTokens {is : List Ident} {bounds : List Token} (h : Within is bounds)
    (trailing : Bool) : Within is (boundTokens bounds trailing) := by
  rw [boundTokens]
  split
  · next none =>
    rw [List.isEmpty_iff.mp none] at h
    exact h
  · exact h.right.left

theorem within_beforeEllipsis {is : List Ident} {params : List Token} (h : Within is params)
    (trailing : Bool) (rest : Option Ellipsis) :
    Within (is ++ Ellipsis.heads rest) (beforeEllipsis params trailing rest) := by
  cases rest with
  | none => exact h.left.append .nil
  | some e =>
    have attributes := Token.within_heads (Attribute.listTokens e.attributes)
    rw [beforeEllipsis, Ellipsis.tokens]
    exact h.left.left.append attributes.left.left.left.right

mutual

/-- What a type reaches out by stands in its tokens. -/
theorem Ty.within_heads : ∀ ty : Ty, Within ty.heads ty.tokens
  | .path path => by
    rw [Ty.heads, Ty.tokens]
    exact path.within_heads
  | .tuple items trailing => by
    rw [Ty.heads, Ty.tokens]
    exact (Ty.within_listHeads items).left.group
  | .paren inner => by
    rw [Ty.heads, Ty.tokens]
    exact inner.within_heads.group
  | .array item length => by
    rw [Ty.heads, Ty.tokens]
    exact (item.within_heads.left.left.append (Token.within_heads length.tokens).right).group
  | .slice item => by
    rw [Ty.heads, Ty.tokens]
    exact item.within_heads.group
  | .never => by
    rw [Ty.heads]
    exact .nil
  | .infer => by
    rw [Ty.heads]
    exact .nil
  | .pointer writable target => by
    rw [Ty.heads, Ty.tokens]
    exact target.within_heads.tail.right
  | .reference life writable target => by
    rw [Ty.heads]
    cases life with
    | none =>
      rw [Ty.tokens]
      exact target.within_heads.right
    | some life =>
      rw [Ty.tokens]
      exact target.within_heads.right
  | .dynamic marked bounds trailing => by
    rw [Ty.heads, Ty.tokens]
    exact (Bound.within_listHeads bounds).right.left
  | .abstract bounds trailing => by
    rw [Ty.heads, Ty.tokens]
    exact (Bound.within_listHeads bounds).tail.left
  | .function binder checked abi params trailing rest none => by
    have inside := within_beforeEllipsis (Param.within_listHeads params) trailing rest
    rw [Ty.heads, Ty.tokens]
    exact (binder.within_heads.left.left.left.left.append inside.group.tail.right.left).append .nil
  | .function binder checked abi params trailing rest (some output) => by
    have inside := within_beforeEllipsis (Param.within_listHeads params) trailing rest
    rw [Ty.heads, Ty.tokens]
    exact (binder.within_heads.left.left.left.left.append inside.group.tail.right.left).append
      output.within_heads.right.right
  | .macroCall call => by
    rw [Ty.heads, Ty.tokens]
    exact call.path.within_first.left.left.append (Token.within_heads call.content.tokens).group.right
  | .verbatim row => by
    rw [Ty.heads, Ty.tokens]
    exact Token.within_heads row.tokens

theorem Ty.within_listHeads : ∀ tys : List Ty, Within (Ty.listHeads tys) (Ty.listTokens tys)
  | [] => .nil
  | [ty] => by
    rw [Ty.listHeads, Ty.listHeads, Ty.listTokens, List.append_nil]
    exact ty.within_heads
  | ty :: next :: tys => by
    rw [Ty.listHeads, Ty.listTokens]
    · exact ty.within_heads.left.left.append (Ty.within_listHeads (next :: tys)).right
    · exact nofun

theorem Param.within_heads : ∀ param : Param, Within param.heads param.tokens
  | .mk attributes none ty => by
    rw [Param.heads, Param.tokens]
    exact (Token.within_heads _).left.append ty.within_heads.right
  | .mk attributes (some i) ty => by
    rw [Param.heads, Param.tokens]
    exact (Token.within_heads _).left.left.append ty.within_heads.right

theorem Param.within_listHeads :
    ∀ params : List Param, Within (Param.listHeads params) (Param.listTokens params)
  | [] => .nil
  | [param] => by
    rw [Param.listHeads, Param.listHeads, Param.listTokens, List.append_nil]
    exact param.within_heads
  | param :: next :: params => by
    rw [Param.listHeads, Param.listTokens]
    · exact param.within_heads.left.left.append (Param.within_listHeads (next :: params)).right
    · exact nofun

theorem QualPath.within_heads : ∀ path : QualPath, Within path.heads path.tokens
  | .plain path => by
    rw [QualPath.heads, QualPath.tokens]
    exact path.within_heads
  | .projected self none rest => by
    rw [QualPath.heads, QualPath.tokens]
    have own : Within self.heads (operator ['<'] ++ self.tokens) := self.within_heads.right
    exact (own.left.left.left.append .nil).append (Segment.within_listHeads true rest).right
  | .projected self (some via) rest => by
    rw [QualPath.heads, QualPath.tokens]
    have own : Within self.heads (operator ['<'] ++ self.tokens) := self.within_heads.right
    exact (own.left.left.left.append via.within_heads.tail.right.left.left).append
      (Segment.within_listHeads true rest).right

theorem Path.within_heads : ∀ path : Path, Within path.heads path.tokens
  | .mk global segments => by
    have first : Within ((segments.map Segment.name).take 1)
        (Segment.listTokens global segments) := by
      cases segments with
      | nil => exact .nil
      | cons segment segments =>
        obtain ⟨i, args⟩ := segment
        rw [Segment.listTokens, Segment.tokens]
        exact Within.head.right.left
    rw [Path.heads, Path.tokens]
    exact first.append (Segment.within_listHeads global segments)

theorem Segment.within_listHeads : ∀ (lead : Bool) (segments : List Segment),
    Within (Segment.listHeads segments) (Segment.listTokens lead segments)
  | _, [] => .nil
  | lead, segment :: segments => by
    rw [Segment.listHeads, Segment.listTokens]
    exact segment.within_heads.right.left.append (Segment.within_listHeads true segments).right

theorem Segment.within_heads : ∀ segment : Segment, Within segment.heads segment.tokens
  | .mk i args => by
    rw [Segment.heads, Segment.tokens]
    exact args.within_heads.tail

theorem Args.within_heads : ∀ args : Args, Within args.heads args.tokens
  | .none => .nil
  | .angle colons items trailing => by
    rw [Args.heads, Args.tokens]
    exact (within_arrange (Arg.within_listHeads items trailing)).right.left
  | .call inputs trailing none => by
    rw [Args.heads, Args.tokens]
    exact ((Ty.within_listHeads inputs).left.group.left).append .nil
  | .call inputs trailing (some output) => by
    rw [Args.heads, Args.tokens]
    exact ((Ty.within_listHeads inputs).left.group.left).append output.within_heads.right.right

theorem Arg.within_heads : ∀ arg : Arg, Within arg.heads arg.tokens
  | .lifetime _ => .nil
  | .type ty => by
    rw [Arg.heads, Arg.tokens]
    exact ty.within_heads
  | .constant value => by
    rw [Arg.heads, Arg.tokens]
    exact value.within_heads
  | .binding i args ty => by
    rw [Arg.heads, Arg.tokens]
    exact args.within_heads.tail.left.left.append ty.within_heads.right
  | .constBinding i args value => by
    rw [Arg.heads, Arg.tokens]
    exact args.within_heads.tail.left.left.append value.within_heads.right
  | .constraint i args bounds trailing => by
    rw [Arg.heads, Arg.tokens]
    exact args.within_heads.tail.left.left.left.append (Bound.within_listHeads bounds).right.left

theorem Arg.within_listHeads : ∀ (args : List Arg) (trailing : Bool), ∀ i ∈ Arg.listHeads args,
    ∃ a ∈ Arg.listTokens args trailing, Token.ident i ∈ a.2.1
  | [], _ => nofun
  | [arg], trailing => by
    intro i mem
    rw [Arg.listHeads, Arg.listHeads, List.append_nil] at mem
    rw [Arg.listTokens]
    exact ⟨_, List.mem_singleton.mpr rfl, arg.within_heads i mem⟩
  | arg :: next :: args, trailing => by
    intro i mem
    rw [Arg.listHeads, List.mem_append] at mem
    rw [Arg.listTokens]
    · rcases mem with here | further
      · exact ⟨_, List.mem_cons_self, arg.within_heads i here⟩
      · obtain ⟨a, ha, inside⟩ := Arg.within_listHeads (next :: args) trailing i further
        exact ⟨a, List.mem_cons_of_mem _ ha, inside⟩
    · exact nofun

theorem Bound.within_heads : ∀ bound : Bound, Within bound.heads bound.tokens
  | .lifetime _ => .nil
  | .trait true binder optional path => by
    rw [Bound.heads, Bound.tokens]
    exact (binder.within_heads.left.left.append path.within_heads.right).group
  | .trait false binder optional path => by
    rw [Bound.heads, Bound.tokens]
    exact binder.within_heads.left.left.append path.within_heads.right
  | .captures _ _ => .nil
  | .verbatim row => Token.within_heads row.tokens

theorem Bound.within_listHeads : ∀ bounds : List Bound,
    Within (Bound.listHeads bounds) (Bound.listTokens bounds)
  | [] => .nil
  | [bound] => by
    rw [Bound.listHeads, Bound.listHeads, Bound.listTokens, List.append_nil]
    exact bound.within_heads
  | bound :: next :: bounds => by
    rw [Bound.listHeads, Bound.listTokens]
    · exact bound.within_heads.left.left.append (Bound.within_listHeads (next :: bounds)).right
    · exact nofun

theorem Binder.within_heads : ∀ binder : Binder, Within binder.heads binder.tokens
  | .none => .nil
  | .mk params trailing => by
    rw [Binder.heads, Binder.tokens]
    exact (Generic.within_listHeads params).right.left.left.tail

theorem Generic.within_heads : ∀ param : Generic, Within param.heads param.tokens
  | .lifetime attributes life bounds trailing => by
    rw [Generic.heads, Generic.tokens]
    exact (Token.within_heads _).left.left
  | .type attributes i bounds trailing none => by
    have bounded := within_boundTokens (Bound.within_listHeads bounds) trailing
    rw [Generic.heads, Generic.tokens]
    exact ((Token.within_heads _).left.left.append bounded.tail.right.left).append .nil
  | .type attributes i bounds trailing (some fallback) => by
    have bounded := within_boundTokens (Bound.within_listHeads bounds) trailing
    rw [Generic.heads, Generic.tokens]
    exact ((Token.within_heads _).left.left.append bounded.tail.right.left).append
      fallback.within_heads.right.right
  | .constant attributes i ty none => by
    rw [Generic.heads, Generic.tokens]
    exact ((Token.within_heads _).left.left.left.append ty.within_heads.right.left).append .nil
  | .constant attributes i ty (some value) => by
    rw [Generic.heads, Generic.tokens]
    exact ((Token.within_heads _).left.left.left.append ty.within_heads.right.left).append
      value.within_heads.right.right

theorem Generic.within_listHeads :
    ∀ params : List Generic, Within (Generic.listHeads params) (Generic.listTokens params)
  | [] => .nil
  | [param] => by
    rw [Generic.listHeads, Generic.listHeads, Generic.listTokens, List.append_nil]
    exact param.within_heads
  | param :: next :: params => by
    rw [Generic.listHeads, Generic.listTokens]
    · exact param.within_heads.left.left.append (Generic.within_listHeads (next :: params)).right
    · exact nofun

end

end TypedDecl.Code

namespace TypedDecl.Declaration

open Code (Ident Token Ty)

/-- The names by which the text of a type reaches out of it. Marks do not count. -/
def typeHeads (type : String) : List String :=
  match Ty.parse? type with
  | some ty => ty.heads.map Ident.name
  | none => (Ident.ofName? type).toList.map Ident.name

example : typeHeads "a::Map<Key<u8>, Item = [T; N]>" = ["a", "Key", "u8", "T", "N"] := by
  decide +kernel

example : typeHeads "type" = ["type"] := by decide +kernel

/-- What the text of a type reaches out by stands in its code. -/
theorem exists_of_mem_typeHeads {type n : String} {ts : List Token} (h : typeTokens type = .ok ts)
    (mem : n ∈ typeHeads type) : ∃ i : Ident, i.name = n ∧ Token.ident i ∈ ts := by
  unfold typeTokens at h
  unfold typeHeads at mem
  cases parsed : Ty.parse? type with
  | some ty =>
    rw [parsed] at h mem
    cases h
    obtain ⟨i, here, rfl⟩ := List.mem_map.mp mem
    exact ⟨i, rfl, ty.within_heads i here⟩
  | none =>
    rw [parsed] at h mem
    cases named : Ident.ofName? type with
    | some i =>
      rw [named] at h mem
      cases h
      exact ⟨i, (List.mem_singleton.mp mem).symm, List.mem_singleton.mpr rfl⟩
    | none =>
      rw [named] at mem
      cases mem

end TypedDecl.Declaration
