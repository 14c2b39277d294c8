import TypedDecl.Proofs.Reading.Operands

namespace TypedDecl.Code

open Token (word operator group)

section Rows

variable {rows : List (List Token)}

theorem length_le_argTokens {row : List Token} (mem : row ∈ rows) :
    row.length ≤ (Item.argTokens rows).length := by
  induction rows with
  | nil => cases mem
  | cons first rows ih =>
    cases rows with
    | nil =>
      obtain rfl := List.mem_singleton.mp mem
      exact Nat.le_of_eq (by rw [Parser.argTokens_singleton])
    | cons second rows =>
      rw [Parser.argTokens_cons, List.length_append, List.length_cons]
      rcases List.mem_cons.mp mem with rfl | further
      · omega
      · have := ih further
        omega

theorem length_argTokens (some_token : ∀ row ∈ rows, row ≠ []) :
    rows.length ≤ (Item.argTokens rows).length := by
  induction rows with
  | nil => exact Nat.zero_le _
  | cons first rows ih =>
    rw [List.forall_mem_cons] at some_token
    have here := List.length_pos_iff.mpr some_token.1
    cases rows with
    | nil => rwa [Parser.argTokens_singleton]
    | cons second rows =>
      have others := ih some_token.2
      rw [Parser.argTokens_cons]
      simp only [List.length_append, List.length_cons] at others here ⊢
      omega

theorem Ty.listTokens_eq (ts : List Ty) : Ty.listTokens ts = Item.argTokens (ts.map Ty.tokens) := by
  induction ts with
  | nil => rfl
  | cons t ts ih =>
    cases ts with
    | nil => rw [Ty.listTokens, List.map_singleton, Parser.argTokens_singleton]
    | cons second ts =>
      have rows : (t :: second :: ts).map Ty.tokens =
          t.tokens :: second.tokens :: ts.map Ty.tokens := rfl
      rw [Ty.listTokens, ih, rows, Parser.argTokens_cons]
      · simp [operator]
      · exact List.cons_ne_nil _ _

theorem Arg.listTokens_cons_cons (a b : Arg) (items : List Arg) (trailing : Bool) :
    Arg.listTokens (a :: b :: items) trailing =
      (a.isLifetime, a.tokens, true) :: Arg.listTokens (b :: items) trailing := by
  rw [Arg.listTokens]
  exact List.cons_ne_nil _ _

theorem Arg.flatMap_listTokens {items : List Arg} {trailing : Bool}
    (ended : items = [] → trailing = false) :
    (Arg.listTokens items trailing).flatMap (fun a => a.2.1 ++ commaIf a.2.2) =
      Item.argTokens (items.map Arg.tokens) ++ commaIf trailing := by
  induction items with
  | nil =>
    rw [ended rfl]
    rfl
  | cons a items ih =>
    cases items with
    | nil =>
      rw [List.map_singleton, Parser.argTokens_singleton]
      simp [Arg.listTokens]
    | cons b items =>
      have rows : (a :: b :: items).map Arg.tokens =
          a.tokens :: b.tokens :: items.map Arg.tokens := rfl
      rw [Arg.listTokens_cons_cons, List.flatMap_cons, ih (absurd · (List.cons_ne_nil _ _)),
        rows, Parser.argTokens_cons]
      simp [commaIf, signIf, operator]

theorem arrange_others {items : List ListedTokens} (h : ∀ a ∈ items, a.1 = false) :
    arrange items = items.flatMap fun a => a.2.1 ++ commaIf a.2.2 := by
  have lives : items.filter (·.1) = [] := by simpa using h
  have others : items.filter (!·.1) = items := by simpa using h
  rw [arrange, lives, others]
  simp [commaIf, signIf]

theorem arrange_cons_life (ts : List Token) (items : List ListedTokens) :
    arrange ((true, ts, true) :: items) = ts ++ operator [','] ++ arrange items := by
  have lives : ((true, ts, true) :: items).filter (·.1) =
      (true, ts, true) :: items.filter (·.1) := rfl
  have others : ((true, ts, true) :: items).filter (!·.1) = items.filter (!·.1) := rfl
  simp only [arrange, lives, others]
  cases items.filter (·.1) with
  | nil => simp [commaIf, signIf]
  | cons a lives =>
    rw [List.getLast?_cons_cons]
    simp [commaIf, signIf]

/-- Lifetimes and then types stay in their order. -/
theorem arrange_listTokens (lives : List Ident) (ts : List Ty) {trailing : Bool}
    (ended : lives = [] → ts = [] → trailing = false) :
    arrange (Arg.listTokens (lives.map Arg.lifetime ++ ts.map Arg.type) trailing) =
      Item.argTokens ((lives.map Arg.lifetime ++ ts.map Arg.type).map Arg.tokens) ++
        commaIf trailing := by
  induction lives with
  | nil =>
    have other : ∀ a ∈ Arg.listTokens (ts.map Arg.type) trailing, a.1 = false := by
      clear ended
      induction ts with
      | nil => exact List.forall_mem_nil _
      | cons t ts ih =>
        cases ts with
        | nil => simp [Arg.listTokens, Arg.isLifetime]
        | cons second ts =>
          rw [List.map_cons, List.map_cons, Arg.listTokens_cons_cons, List.forall_mem_cons]
          exact ⟨rfl, ih⟩
    have some_type : ts.map Arg.type = [] → trailing = false := by simpa using ended rfl
    rw [List.map_nil, List.nil_append, arrange_others other, Arg.flatMap_listTokens some_type]
  | cons i lives ih =>
    rw [List.map_cons, List.cons_append]
    cases listed : lives.map Arg.lifetime ++ ts.map Arg.type with
    | nil =>
      rw [List.map_singleton, Parser.argTokens_singleton]
      cases trailing <;> simp [Arg.listTokens, Arg.isLifetime, arrange, commaIf, signIf]
    | cons a items =>
      have further : lives = [] → ts = [] → trailing = false := by
        rintro rfl rfl
        cases listed
      have rows : (Arg.lifetime i :: a :: items).map Arg.tokens =
          (Arg.lifetime i).tokens :: a.tokens :: items.map Arg.tokens := rfl
      have others : (a :: items).map Arg.tokens = a.tokens :: items.map Arg.tokens := rfl
      rw [Arg.listTokens_cons_cons, Arg.isLifetime, arrange_cons_life, ← listed, ih further, listed,
        rows, others, Parser.argTokens_cons]
      simp [operator]

theorem Args.tokens_listed (lives : List Ident) (ts : List Ty) {trailing : Bool}
    (ended : lives = [] → ts = [] → trailing = false) :
    (Args.angle false (lives.map .lifetime ++ ts.map .type) trailing).tokens =
      .punct '<' false ::
        (Item.argTokens ((lives.map Arg.lifetime ++ ts.map Arg.type).map Arg.tokens) ++
          commaIf trailing ++ [.punct '>' false]) := by
  rw [Args.tokens, arrange_listTokens lives ts ended]
  rfl

end Rows

namespace Parser

open Code.Path (leadTokens argsPath)

/-- A type can begin here: no lifetime, no constant and no bound does, and no list ends. -/
structure Opens (ts : List Token) : Prop where
  lifetime : startsLifetime ts = false
  constant : startsConst ts = false
  optional : starts ['?'] ts = false
  angle : starts ['>'] ts = false
  ends : ends ts = false
  writable : startsWord "mut" ts = false

namespace Opens

variable {ts : List Token}

theorem lead {i : Ident} (h : isRoot i = true ∨ i.isName = true) : Opens (.ident i :: ts) := by
  rcases h with root | named
  · rcases isRoot_iff.mp root with rfl | rfl | rfl | rfl <;> exact ⟨rfl, rfl, rfl, rfl, rfl, rfl⟩
  · have literal := startsLiteral_name named ts
    refine ⟨rfl, ?_, rfl, rfl, rfl, startsWord_name ts named (by decide)⟩
    rw [startsConst, literal]
    rfl

theorem blank : Opens (word "_" :: ts) := ⟨rfl, rfl, rfl, rfl, rfl, rfl⟩

theorem group {d : Delim} (other : d ≠ .brace) : Opens (.opening d :: ts) := by
  refine ⟨rfl, ?_, rfl, rfl, rfl, rfl⟩
  simp [startsConst, startsLiteral, literal?, starting, other.symm]

theorem sign {c : Char} (joint : Bool) (h : [':', '&', '*', '!'].contains c = true) :
    Opens (.punct c joint :: ts) := by
  have other : c = ':' ∨ c = '&' ∨ c = '*' ∨ c = '!' := by simpa using h
  rcases other with rfl | rfl | rfl | rfl <;> exact ⟨rfl, rfl, rfl, rfl, rfl, rfl⟩

end Opens

/-- The row is read as this type wherever a type can end. -/
structure ReadsTy (g : Grammar) (row : List Token) (t : Ty) : Prop where
  opens : ∀ rest, Opens (row ++ rest)
  read : ∀ rest, endsTy rest = true → ∀ plus, g.ty plus (row ++ rest) = some (t, rest)

theorem ReadsTy.ne_nil {g : Grammar} {row : List Token} {t : Ty} (h : ReadsTy g row t) :
    row ≠ [] := by
  rintro rfl
  cases (h.opens []).ends

variable {g : Grammar} {i j : Ident} {is : List Ident} {ts row rest : List Token} {t : Ty}
  {rows : List (List Token)} {items : List Ty} {trailing : Bool}

section Paths

theorem path_rooted {ss : List Segment} {expr : Bool}
    (read : path g expr (.ident i :: ts) = some (.mk false ss, rest)) :
    path g expr (operator colons ++ .ident i :: ts) = some (.mk true ss, rest) := by
  have mark_colons : mark colons (operator colons ++ .ident i :: ts) = (true, .ident i :: ts) := rfl
  have mark_name : mark colons (.ident i :: ts) = (false, .ident i :: ts) := rfl
  simp only [path, mark_name, mark_colons] at read ⊢
  cases read_segments : segments g expr true g.more (.ident i :: ts) with
  | none => simp [read_segments] at read
  | some p => simpa [read_segments] using read

/-- A path as a type, be it from the root. -/
theorem ty_lead (global : Bool) (leads : ∀ i ∈ is, isRoot i = true ∨ i.isName = true)
    (last : j.isName = true)
    {args : Args} (read : path g false (leadTokens is ++ .ident j :: ts) =
      some (argsPath is j args, rest)) (plain : starts ['#'] ts = false) (ends : endsTy rest = true)
    (plus : Bool) :
    ty g plus (signIf colons global ++ (leadTokens is ++ .ident j :: ts)) =
      some (.path (.plain (.mk global (argsPath is j args).segments)), rest) := by
  obtain ⟨k, ks, row, lead, plain⟩ := begins_lead leads (.inr last) plain
  rw [row] at read ⊢
  cases global with
  | false => exact ty_path lead read plain ends plus
  | true =>
    have rooted : path g false (operator colons ++ .ident k :: ks) =
        some (.mk true (argsPath is j args).segments, rest) := path_rooted read
    have unbound : ty g plus (operator colons ++ .ident k :: ks) =
        pathTy g .none plus (operator colons ++ .ident k :: ks) := rfl
    rw [signIf, if_pos rfl, unbound]
    simp [pathTy, rooted, starts, startsMacro, sign?_endsTy ends]
    simp [operator, colons, sign?_ne]

end Paths

section Lists

theorem ReadsTy.readsArg (h : ReadsTy g row t) (rest : List Token) :
    ReadsItem (arg g) (starts ['>']) (.punct '>' false :: rest) row (.type t) := by
  intro behind close
  have ends : endsTy behind = true := by
    rcases close with rfl | ⟨us, rfl⟩ <;> rfl
  have equals : starts ['='] behind = false := by
    rcases close with rfl | ⟨us, rfl⟩ <;> rfl
  have colon : sign? [':'] behind = none := by
    rcases close with rfl | ⟨us, rfl⟩ <;> rfl
  have opens := h.opens behind
  refine ⟨opens.angle, ?_⟩
  rw [arg, opens.lifetime, opens.constant]
  simp only [Bool.false_and, Bool.false_eq_true, if_false, h.read behind ends, Option.bind_eq_bind,
    Option.bind_some, equals, colon]
  split <;> rfl

theorem readsItem_life (i : Ident) (rest : List Token) :
    ReadsItem (arg g) (starts ['>']) (.punct '>' false :: rest) (Token.lifetime i)
      (.lifetime i) := by
  intro behind close
  have bound : starts ['+'] behind = false := by
    rcases close with rfl | ⟨us, rfl⟩ <;> rfl
  have life : startsLifetime (Token.lifetime i ++ behind) = true := rfl
  have after : afterTree (Token.lifetime i ++ behind) = behind := rfl
  refine ⟨rfl, ?_⟩
  rw [arg, life, after, bound]
  rfl

/-- Arguments between angle brackets. -/
theorem angle_args {args : List Arg}
    (h : List.Forall₂ (ReadsItem (arg g) (starts ['>']) (.punct '>' false :: rest)) rows args)
    (enough : rows.length < g.more) (ended : args = [] → trailing = false) :
    angle g false (.punct '<' false ::
        (Item.argTokens rows ++ commaIf trailing ++ .punct '>' false :: rest)) =
      some (.angle false args trailing, rest) := by
  have list := separated_listed h rfl (fun _ => rfl) enough ended
  have unfolded : angle g false (.punct '<' false ::
        (Item.argTokens rows ++ commaIf trailing ++ .punct '>' false :: rest)) =
      (separated (arg g) [','] (starts ['>']) g.more
        (Item.argTokens rows ++ commaIf trailing ++ .punct '>' false :: rest)).bind fun p =>
          (sign? ['>'] p.2).bind fun ts => some (.angle false p.1.1 p.1.2, ts) := rfl
  rw [unfolded, list]
  rfl

theorem ReadsTy.readsItem (h : ReadsTy g row t) (d : Delim) (rest : List Token) :
    ReadsItem (g.ty true) Parser.ends (.closing d :: rest) row t := by
  intro behind close
  have ends : endsTy behind = true := by
    rcases close with rfl | ⟨us, rfl⟩ <;> rfl
  exact ⟨(h.opens behind).ends, h.read behind ends true⟩

theorem opens_list (h : List.Forall₂ (ReadsTy g) rows items) (trailing : Bool) (d : Delim)
    (rest : List Token) :
    startsLifetime (Item.argTokens rows ++ commaIf trailing ++ .closing d :: rest) = false ∧
      starts ['?'] (Item.argTokens rows ++ commaIf trailing ++ .closing d :: rest) = false := by
  cases h with
  | nil => cases trailing <;> exact ⟨rfl, rfl⟩
  | @cons row t rows items first others =>
    have row_eq : ∃ behind, Item.argTokens (row :: rows) ++ commaIf trailing ++ .closing d :: rest =
        row ++ behind := by
      cases rows with
      | nil => exact ⟨_, by rw [argTokens_singleton, List.append_assoc]⟩
      | cons second rows => exact ⟨_, by rw [argTokens_cons, List.append_assoc, List.append_assoc]⟩
    obtain ⟨behind, row_eq⟩ := row_eq
    rw [row_eq]
    exact ⟨(first.opens behind).lifetime, (first.opens behind).optional⟩

end Lists

section Forms

/-- What stands in parentheses is read as a list of types. -/
theorem parenTy_list (h : List.Forall₂ (ReadsTy g) rows items) (enough : rows.length < g.more)
    (ended : items = [] → trailing = false) (rest : List Token) :
    startsLifetime ((group .paren (Item.argTokens rows ++ commaIf trailing) ++ rest).drop 1) =
      false ∧
    starts ['?'] ((group .paren (Item.argTokens rows ++ commaIf trailing) ++ rest).drop 1) = false ∧
    grouped .paren (commas (g.ty true) g.more)
        (group .paren (Item.argTokens rows ++ commaIf trailing) ++ rest) =
      some ((items, trailing), rest) := by
  have behind : group .paren (Item.argTokens rows ++ commaIf trailing) ++ rest =
      .opening .paren :: (Item.argTokens rows ++ commaIf trailing ++ .closing .paren :: rest) := by
    simp [group]
  have opens := opens_list h trailing .paren rest
  have items := h.imp fun _ _ reads => reads.readsItem .paren rest
  have list := commas_listed items enough ended
  rw [behind]
  refine ⟨opens.1, opens.2, ?_⟩
  rw [List.append_assoc] at list ⊢
  simp [grouped, opening?, closing?, list]

theorem ty_paren (h : ReadsTy g row t) (several : 1 < g.more) (ends : endsTy rest = true)
    (plus : Bool) : ty g plus (group .paren row ++ rest) = some (.paren t, rest) := by
  have ended : [t] = [] → false = false := fun _ => rfl
  obtain ⟨life, optional, list⟩ := parenTy_list (.cons h .nil) several ended rest
  have content : Item.argTokens [row] ++ commaIf false = row := by
    rw [argTokens_singleton, commaIf, signIf, if_neg Bool.false_ne_true, List.append_nil]
  rw [content] at life optional list
  have unbound : ty g plus (group .paren row ++ rest) =
      parenTy g plus (group .paren row ++ rest) := rfl
  rw [unbound, parenTy, life, optional]
  simp [list, starts, sign?_endsTy ends]

theorem ty_tuple (h : List.Forall₂ (ReadsTy g) rows items) (enough : rows.length < g.more)
    (ended : items = [] → trailing = false) (alone : ∀ t, items = [t] → trailing = true)
    (plus : Bool) :
    ty g plus (group .paren (Item.argTokens rows ++ commaIf trailing) ++ rest) =
      some (.tuple items trailing, rest) := by
  obtain ⟨life, optional, list⟩ := parenTy_list h enough ended rest
  have unbound : ty g plus (group .paren (Item.argTokens rows ++ commaIf trailing) ++ rest) =
      parenTy g plus (group .paren (Item.argTokens rows ++ commaIf trailing) ++ rest) := rfl
  rw [unbound, parenTy, life, optional]
  simp only [Bool.false_eq_true, if_false, list, Option.bind_eq_bind, Option.bind_some]
  split
  · next same => exact absurd (alone _ rfl) Bool.false_ne_true
  · rfl

theorem ty_slice (h : ReadsTy g row t) (plus : Bool) :
    ty g plus (group .bracket row ++ rest) = some (.slice t, rest) := by
  have behind : group .bracket row ++ rest =
      .opening .bracket :: (row ++ .closing .bracket :: rest) := by simp [group]
  have unbound : ty g plus (.opening .bracket :: (row ++ .closing .bracket :: rest)) =
      bracketTy g (.opening .bracket :: (row ++ .closing .bracket :: rest)) := rfl
  have item := h.read (.closing .bracket :: rest) rfl true
  rw [behind, unbound]
  simp [bracketTy, grouped, opening?, closing?, item, after?]

theorem ty_array (h : ReadsTy g row t) {length : Row}
    (read : ∀ rest, g.valueRow (length.tokens ++ .closing .bracket :: rest) =
      some (length, .closing .bracket :: rest)) (plus : Bool) :
    ty g plus (group .bracket (row ++ operator [';'] ++ length.tokens) ++ rest) =
      some (.array t length, rest) := by
  have behind : group .bracket (row ++ operator [';'] ++ length.tokens) ++ rest =
      .opening .bracket ::
        (row ++ .punct ';' false :: (length.tokens ++ .closing .bracket :: rest)) := by
    simp [group, operator]
  have item := h.read (.punct ';' false :: (length.tokens ++ .closing .bracket :: rest)) rfl true
  have unbound : ty g plus (.opening .bracket ::
        (row ++ .punct ';' false :: (length.tokens ++ .closing .bracket :: rest))) =
      bracketTy g (.opening .bracket ::
        (row ++ .punct ';' false :: (length.tokens ++ .closing .bracket :: rest))) := rfl
  rw [behind, unbound]
  simp [bracketTy, grouped, opening?, closing?, item, after?, read]

theorem ty_reference (h : ReadsTy g row t) (life : Option Ident) (writable : Bool)
    (ends : endsTy rest = true) (plus : Bool) :
    ty g plus (operator ['&'] ++ life.elim [] Token.lifetime ++ wordIf "mut" writable ++ row ++
      rest) = some (.reference life writable t, rest) := by
  have sign (ts : List Token) : ty g plus (.punct '&' false :: ts) = referenceTy g ts := rfl
  have target : markWord "mut" (wordIf "mut" writable ++ (row ++ rest)) =
      (writable, row ++ rest) := by
    cases writable with
    | false => exact markWord_of_startsWord (h.opens rest).writable
    | true => rfl
  have free : startsLifetime (wordIf "mut" writable ++ (row ++ rest)) = false := by
    cases writable with
    | false => exact (h.opens rest).lifetime
    | true => rfl
  have read := h.read rest ends false
  cases life with
  | none =>
    have behind : operator ['&'] ++ (none : Option Ident).elim [] Token.lifetime ++
        wordIf "mut" writable ++ row ++ rest =
          .punct '&' false :: (wordIf "mut" writable ++ (row ++ rest)) := by
      simp [operator]
    rw [behind, sign, referenceTy, optional, free]
    simp [target, read]
  | some i =>
    have behind : operator ['&'] ++ (some i).elim [] Token.lifetime ++ wordIf "mut" writable ++
        row ++ rest =
          .punct '&' false :: .punct '\'' true :: .ident i ::
            (wordIf "mut" writable ++ (row ++ rest)) := by
      simp [operator, Token.lifetime]
    have life : startsLifetime (.punct '\'' true :: .ident i ::
        (wordIf "mut" writable ++ (row ++ rest))) = true := rfl
    rw [behind, sign, referenceTy, optional, life]
    simp [lifetime?, target, read]

theorem ty_pointer (h : ReadsTy g row t) (writable : Bool) (ends : endsTy rest = true)
    (plus : Bool) :
    ty g plus (operator ['*'] ++ word (if writable then "mut" else "const") :: row ++ rest) =
      some (.pointer writable t, rest) := by
  have sign (ts : List Token) : ty g plus (.punct '*' false :: ts) = pointerTy g ts := rfl
  have behind : operator ['*'] ++ word (if writable then "mut" else "const") :: row ++ rest =
      .punct '*' false :: word (if writable then "mut" else "const") :: (row ++ rest) := rfl
  have read := h.read rest ends false
  rw [behind, sign]
  cases writable with
  | false =>
    have none : markWord "mut" (word "const" :: (row ++ rest)) =
        (false, word "const" :: (row ++ rest)) := rfl
    have kept : word? "const" (word "const" :: (row ++ rest)) = some (row ++ rest) := rfl
    simp [pointerTy, none, kept, read]
  | true =>
    have kept : markWord "mut" (word "mut" :: (row ++ rest)) = (true, row ++ rest) := rfl
    simp [pointerTy, kept, read]

theorem ty_never (plus : Bool) : ty g plus (operator ['!'] ++ rest) = some (.never, rest) := rfl

theorem ty_infer (plus : Bool) : ty g plus (word "_" :: rest) = some (.infer, rest) := rfl

end Forms

end Parser

end TypedDecl.Code
