import TypedDecl.Proofs.CatalogItems
import TypedDecl.Proofs.Lexing

namespace TypedDecl

open Code (Delim Ident NameText Path Token Apart)
open Code.Lexer (tokens)
open Code.Path (leadTokens)
open Declaration (plain)

namespace Code.Lexer

open Unicode (isIdentStart)

theorem tokens_colon (fuel : Nat) (stack : List Delim) (cs : List Char) :
    tokens (fuel + 1) stack (':' :: cs) =
      (tokens fuel stack cs).map (Token.punct ':' (punctAt? cs).isSome :: ·) := by
  have literal : Literal.after? (':' :: cs) = none := by
    have string : Literal.afterString? (':' :: cs) = none := rfl
    have byte : Literal.afterByte? (':' :: cs) = none := rfl
    rw [Literal.after?, string, byte, Literal.afterChar?_cons (by decide),
      Literal.afterFloat?_cons rfl, Literal.afterInteger?_cons rfl]
    rfl
  have leaf : leaf? (':' :: cs) = some (Token.punct ':' (punctAt? cs).isSome, cs) := by
    rw [leaf?, literal]
    rfl
  rw [tokens_leaf rfl rfl rfl rfl, leaf, Option.bind_some]

theorem tokens_colons {c : Char} (h : isIdentStart c = true) (fuel : Nat) (stack : List Delim)
    (cs : List Char) :
    tokens (fuel + 2) stack (':' :: ':' :: c :: cs) =
      (tokens fuel stack (c :: cs)).map fun ts =>
        Token.punct ':' true :: Token.punct ':' false :: ts := by
  have slash : c ≠ '/' := ne_of_isIdentStart h rfl
  have sign : punctAt? (c :: cs) = none := by
    simpa [punctAt?, slash] using (outside_of_isIdentStart h).2.2
  have joint : (punctAt? (':' :: c :: cs)).isSome = true := rfl
  rw [tokens_colon, tokens_colon, sign, joint, Option.map_map]
  rfl

theorem begins_name {w : List Char} (hw : NameText w) :
    ∃ c cs, w = c :: cs ∧ isIdentStart c = true := by
  obtain @⟨c, cs, first, -⟩ := hw
  exact ⟨c, cs, rfl, first⟩

theorem dropMark_start {c : Char} (h : isIdentStart c = true) (cs : List Char) :
    dropMark (c :: cs) = c :: cs := by
  have mark : c ≠ Char.ofNat 0xfeff := ne_of_isIdentStart h (by decide +kernel)
  rw [dropMark, if_neg]
  intro same
  rw [← same, Char.ofNat_toNat] at mark
  exact mark rfl

theorem begins_names {names : List String} {last : String}
    (h : ∀ n ∈ names ++ [last], NameText n.toList) :
    ∃ c cs, [':', ':'].intercalate ((names ++ [last]).map String.toList) = c :: cs ∧
      isIdentStart c = true := by
  obtain ⟨x, xs, split⟩ := List.exists_cons_of_ne_nil (l := names ++ [last]) (by simp)
  obtain ⟨c, cs, chars, start⟩ := begins_name (h x (by simp [split]))
  cases xs with
  | nil => exact ⟨c, cs, by simp [split, chars], start⟩
  | cons y ys =>
    refine ⟨c, cs ++ ([':', ':'] ++ [':', ':'].intercalate ((y :: ys).map String.toList)), ?_, start⟩
    rw [split, List.map_cons, List.map_cons, List.intercalate_cons_cons, chars]
    simp

/-- Names with colons between each two are these names. -/
theorem tokens_names {names : List String} {last : String}
    (h : ∀ n ∈ names ++ [last], NameText n.toList) {fuel : Nat}
    (enough : ([':', ':'].intercalate ((names ++ [last]).map String.toList)).length < fuel) :
    tokens fuel [] ([':', ':'].intercalate ((names ++ [last]).map String.toList)) =
      some (leadTokens (names.map plain) ++ [.ident (plain last)]) := by
  induction names generalizing fuel with
  | nil =>
    have name := h last (by simp)
    simp only [List.nil_append, List.map_cons, List.map_nil, List.intercalate_singleton] at enough ⊢
    obtain ⟨fuel, rfl⟩ := Nat.exists_eq_succ_of_ne_zero (Nat.ne_zero_of_lt enough)
    obtain ⟨c, cs, chars, -⟩ := begins_name name
    have some_char : last.toList.length ≠ 0 := by simp [chars]
    have row := tokens_name name .nil fuel []
    rw [List.append_nil, Token.tokens_end (by omega), String.ofList_toList] at row
    rw [row]
    rfl
  | cons n names ih =>
    rw [List.cons_append, List.forall_mem_cons] at h
    obtain ⟨name, others⟩ := h
    let behind := [':', ':'].intercalate ((names ++ [last]).map String.toList)
    have row_eq : [':', ':'].intercalate ((n :: names ++ [last]).map String.toList) =
        n.toList ++ ':' :: ':' :: behind := by
      obtain ⟨x, xs, split⟩ := List.exists_cons_of_ne_nil (l := names ++ [last]) (by simp)
      simp only [behind, List.cons_append, split, List.map_cons, List.intercalate_cons_cons,
        List.append_assoc, List.nil_append]
    obtain ⟨c, cs, begins, start⟩ : ∃ c cs, behind = c :: cs ∧ isIdentStart c = true :=
      begins_names others
    rw [row_eq, List.length_append, List.length_cons, List.length_cons] at enough
    obtain ⟨fuel, rfl⟩ : ∃ f, fuel = f + 3 := ⟨fuel - 3, by omega⟩
    obtain ⟨d, ds, chars, -⟩ := begins_name name
    have some_char : n.toList.length ≠ 0 := by simp [chars]
    have inner : tokens fuel [] behind =
        some (leadTokens (names.map plain) ++ [.ident (plain last)]) :=
      ih others (show behind.length < fuel by omega)
    have apart : Apart (':' :: ':' :: behind) := .cons rfl _
    have row := tokens_name name apart (fuel + 2) []
    rw [row_eq, row, begins, tokens_colons start, ← begins, inner]
    simp [leadTokens, plain, Token.operator, Parser.colons, Ident.plain]

end Code.Lexer

namespace Declaration.Runtime

/-- The path of some names and a last one. -/
def ofNames (names : List String) (last : String)
    (named : ∀ n ∈ names ++ [last], (plain n).isName = true) : Runtime where
  names := names.map plain ++ [plain last]
  some_name := by simp
  named := by
    intro i mem
    rw [← List.map_singleton, ← List.map_append] at mem
    obtain ⟨n, here, rfl⟩ := List.mem_map.mp mem
    exact named n here

/-- What is read as names with colons between them is the path of these names. -/
theorem runtimePath_of_read? {is : List Ident} {j : Ident} {s : String}
    (named : ∀ i ∈ is ++ [j], i.isName = true)
    (read : Token.read? s = some (leadTokens is ++ [Token.ident j])) :
    runtimePath s = .ok (Runtime.mk (is ++ [j]) (by simp) named).path := by
  let row := leadTokens is ++ [Token.ident j]
  have path : Code.Parser.path (Code.Grammar.forRow row) false row =
      some ((Runtime.mk (is ++ [j]) (by simp) named).path, []) := by
    have long := Code.Path.length_le_leadTokens is
    have enough : is.length < (Code.Grammar.forRow row).more := by
      rw [Code.Grammar.forRow, Code.Grammar.nested_more, List.length_append]
      omega
    have leads (i : Ident) (mem : i ∈ is) : Code.Parser.isRoot i = true ∨ i.isName = true :=
      .inr (named i (by simp [mem]))
    exact Code.Parser.path_names leads (named j (by simp)) enough
      (Code.Parser.segmentArgs_endsTy rfl false) rfl
  rw [runtimePath, Path.parse?, read, Option.bind_some, Code.Parser.all?, path]

/-- Names with two colons between each two are the path of these names. -/
theorem runtimePath_intercalate {names : List String} {last : String}
    (named : ∀ n ∈ names ++ [last], (plain n).isName = true)
    (texts : ∀ n ∈ names ++ [last], NameText n.toList) :
    runtimePath ("::".intercalate (names ++ [last])) = .ok (ofNames names last named).path := by
  have chars : ("::".intercalate (names ++ [last])).toList =
      [':', ':'].intercalate ((names ++ [last]).map String.toList) := String.toList_intercalate
  refine runtimePath_of_read? (ofNames names last named).named ?_
  obtain ⟨c, cs, begins, start⟩ := Code.Lexer.begins_names texts
  have mark := Code.Lexer.dropMark_start start cs
  rw [← begins] at mark
  rw [Token.read?, chars, mark]
  exact Code.Lexer.tokens_names texts (Nat.lt_succ_self _)

end Declaration.Runtime

end TypedDecl
