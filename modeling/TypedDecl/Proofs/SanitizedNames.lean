import TypedDecl.Proofs.CatalogCode
import TypedDecl.Proofs.Naming

namespace TypedDecl.Name

/-- `A` to `Z`, `a` to `z` and the underscore. -/
def Begins (c : Char) : Prop :=
  ('A' ≤ c ∧ c ≤ 'Z') ∨ ('a' ≤ c ∧ c ≤ 'z') ∨ c = '_'

/-- What begins an identifier, and `0` to `9`. -/
def Continues (c : Char) : Prop :=
  Begins c ∨ ('0' ≤ c ∧ c ≤ '9')

/-- An identifier in ASCII, keyword or not. -/
def AsciiIdentifier (s : String) : Prop :=
  ∃ c cs, s.toList = c :: cs ∧ Begins c ∧ ∀ d ∈ cs, Continues d

theorem isDigit_iff (c : Char) : c.isDigit = true ↔ '0' ≤ c ∧ c ≤ '9' := by
  simp only [Char.isDigit, Bool.and_eq_true, decide_eq_true_eq, ge_iff_le]
  rfl

theorem isWord_iff (c : Char) : isWord c = true ↔ Continues c := by
  have upper : c.isUpper = true ↔ 'A' ≤ c ∧ c ≤ 'Z' := by
    simp only [Char.isUpper, decide_eq_true_eq, ge_iff_le]
    rfl
  have lower : c.isLower = true ↔ 'a' ≤ c ∧ c ≤ 'z' := by
    simp only [Char.isLower, Bool.and_eq_true, decide_eq_true_eq, ge_iff_le]
    rfl
  simp only [isWord, Char.isAlphanum, Char.isAlpha, Bool.or_eq_true, decide_eq_true_eq,
    upper, lower, isDigit_iff, Continues, Begins]
  tauto

/-- The digits stand before the letters and the underscore. -/
theorem Begins.isDigit {c : Char} (h : Begins c) : c.isDigit = false := by
  rw [Bool.eq_false_iff]
  intro digit
  obtain ⟨_, high⟩ := (isDigit_iff c).mp digit
  obtain ⟨low, _⟩ | ⟨low, _⟩ | rfl := h
  · exact absurd (low.trans high) (by decide)
  · exact absurd (low.trans high) (by decide)
  · exact absurd high (by decide)

theorem word_iff (s : String) : Word s.toList ↔ AsciiIdentifier s := by
  constructor
  · intro h
    generalize shape : s.toList = l at h
    obtain ⟨first, digit, others⟩ := h
    refine ⟨_, _, shape, ?_, fun d hd => (isWord_iff d).mp (others d hd)⟩
    apply ((isWord_iff _).mp first).resolve_right
    intro numeral
    rw [(isDigit_iff _).mpr numeral] at digit
    contradiction
  · rintro ⟨c, cs, shape, begun, others⟩
    rw [shape]
    exact .intro ((isWord_iff c).mpr (.inl begun)) begun.isDigit
      fun d hd => (isWord_iff d).mpr (others d hd)

theorem map_wordChar {cs : List Char} (h : ∀ c ∈ cs, isWord c = true) : cs.map wordChar = cs := by
  have same : ∀ c ∈ cs, wordChar c = id c := by
    intro c hc
    rw [wordChar, if_pos (h c hc), id]
  rw [List.map_congr_left same, List.map_id]

theorem lead_word {cs : List Char} (h : Word cs) : lead cs = [] := by
  obtain ⟨_, digit, _⟩ := h
  rw [lead, digit, if_neg Bool.false_ne_true]

/-- Words are what sanitizing leaves as it is. -/
theorem sanitizeChars_eq_self_iff (cs : List Char) : sanitizeChars cs = cs ↔ Word cs := by
  constructor
  · intro h
    rw [← h]
    exact word_sanitizeChars cs
  · intro h
    rw [sanitizeChars, map_wordChar h.isWord, lead_word h, List.nil_append]

theorem sanitize_eq_self_iff (s : String) : sanitize s = s ↔ Word s.toList := by
  rw [← sanitizeChars_eq_self_iff, sanitize, ← String.toList_inj, String.toList_ofList]

/-- The text of a path begins with the identifier that the name is. -/
theorem pathSegment_word {s : String} (h : Word s.toList) {i : Code.Ident}
    (hi : Declaration.ident s = .ok i) : pathSegment s = i.text := by
  obtain ⟨spelled, _⟩ := Declaration.ident_word h hi
  rw [pathSegment, Code.Ident.parse?_word h, spelled, Code.Ident.text]
  cases Code.keywords.contains s <;> rfl

end TypedDecl.Name

namespace TypedDecl.Declaration

open Code (Ident Token Path Structure Outline.structs)
open Code.Token (word Closed)
open Code.Lexer (neverRaw)
open Name (Word AsciiIdentifier sanitize pathSegment)

/-- A word is an identifier exactly if it can be raw, and it is raw exactly if it is no identifier
by itself. -/
theorem ident_word_parse {s : String} (h : Word s.toList) :
    ident s =
      if s ∈ neverRaw then .error (.invalidName s) else .ok ⟨(Ident.parse? s).isNone, s⟩ := by
  have raw : (Ident.parse? s).isNone = Code.keywords.contains s := by
    rw [Ident.parse?_word h]
    cases Code.keywords.contains s <;> rfl
  rw [ident_word_eq h, raw]
  simp only [List.contains_iff_mem]

/-- What sanitizing does to a name, and what the result is as an identifier. -/
theorem ident_sanitize (s : String) :
    AsciiIdentifier (sanitize s) ∧ (sanitize s = s ↔ AsciiIdentifier s) ∧
      sanitize (sanitize s) = sanitize s ∧ Set.range sanitize = Function.fixedPoints sanitize ∧
      ((∃ i, ident (sanitize s) = .ok i) ↔
        sanitize s ∉ ["_", "self", "Self", "super", "crate"]) ∧
      ident (sanitize s) =
        if sanitize s ∈ ["_", "self", "Self", "super", "crate"] then
          .error (.invalidName (sanitize s))
        else .ok ⟨(Ident.parse? (sanitize s)).isNone, sanitize s⟩ := by
  have words (s : String) : Word (sanitize s).toList := Name.word_sanitize s
  have idempotent (s : String) : sanitize (sanitize s) = sanitize s :=
    (Name.sanitize_eq_self_iff _).mpr (words s)
  have reserved (n : String) :
      n ∈ ["_", "self", "Self", "super", "crate"] ↔ n ∈ neverRaw := by
    simp only [neverRaw, List.mem_cons]
    tauto
  have image : Set.range sanitize = Function.fixedPoints sanitize := by
    ext n
    constructor
    · rintro ⟨r, rfl⟩
      exact idempotent r
    · intro fixed
      exact ⟨n, fixed⟩
  have named := ident_word_parse (words s)
  simp only [reserved, ← Name.word_iff]
  refine ⟨words s, Name.sanitize_eq_self_iff s, idempotent s, image, ?_, named⟩
  rw [named]
  split_ifs with never <;> simp [never]

/-- The structure of a table has the name that its declaration is read as. -/
theorem structs_declaration {t : Table} {i : Ident} (h : ident t.declared = .ok i)
    {runtime : Path} {row : List Token} (emitted : tokens runtime t.declaration = .ok row) :
    (Outline.structs row).map Structure.name = [i] := by
  obtain ⟨j, hj, emitted⟩ := bind_ok emitted
  obtain rfl : i = j := Except.ok.inj (h.symm.trans hj)
  obtain ⟨members, spelled, emitted⟩ := bind_ok emitted
  cases emitted
  have closed : ∀ m ∈ members, Closed m.type ∧ Closed m.value := by
    intro m hm
    obtain ⟨column, hc, read⟩ := exists_of_forall₂ (mapM_ok spelled) hm
    obtain ⟨c, _, rfl⟩ := List.mem_map.mp hc
    obtain ⟨_, type, value⟩ := spell_ok read
    have literal : [Token.literal (Text.Quoted.quote c.name)] = m.value :=
      Except.ok.inj ((valueTokens_quote c.name).symm.trans value)
    refine ⟨closed_typeTokens type, ?_⟩
    rw [← literal]
    rfl
  have outline := structs_tableTokens runtime (ne_struct_of_ident h) t.schema t.name closed []
  rw [List.append_nil] at outline
  rw [outline]
  rfl

/-- A sanitized name that is an identifier is the same identifier as a type, at the beginning of a
value and as the text of a path. So what the registry says of a table, whose function, result and
call are spelled in three ways, names the one structure of that table. -/
theorem spellings_of_ident {s : String} {i : Ident} (h : ident (sanitize s) = .ok i) :
    typeTokens (sanitize s) = .ok [.ident i] ∧
      valueTokens (pathSegment (sanitize s) ++ "::new()") =
        .ok [.ident i, .punct ':' true, .punct ':' false, word "new", .opening .paren,
          .closing .paren] ∧
      pathSegment (sanitize s) = i.text ∧
      ∀ t : Table, t.declared = sanitize s →
        spell t.entry = .ok ⟨i, [.ident i], [.ident i, .punct ':' true, .punct ':' false,
          word "new", .opening .paren, .closing .paren]⟩ ∧
        ∀ runtime row, tokens runtime t.declaration = .ok row →
          (Outline.structs row).map Structure.name = [i] := by
  have name : Word (sanitize s).toList := Name.word_sanitize s
  have type := typeTokens_word name h
  have value := valueTokens_constructor name h
  refine ⟨type, value, Name.pathSegment_word name h, ?_⟩
  intro t declared
  rw [← declared] at h type value
  constructor
  · rw [spell, Table.entry]
    simp only [h, type, value]
    rfl
  · intro runtime row emitted
    exact structs_declaration h emitted

theorem spellings_of_keyword_table : ∃ path row,
    ident (sanitize "match") = .ok ⟨true, "match"⟩ ∧
      typeTokens (sanitize "match") = .ok [.ident ⟨true, "match"⟩] ∧
      valueTokens (pathSegment (sanitize "match") ++ "::new()") =
        .ok [.ident ⟨true, "match"⟩, .punct ':' true, .punct ':' false, word "new",
          .opening .paren, .closing .paren] ∧
      pathSegment (sanitize "match") = "r#match" ∧
      tokens path (Table.mk "dbo" "match" "match" [⟨"dbo", "match", "type", "int"⟩]).declaration =
        .ok row ∧
      (Outline.structs row).map Structure.name = [⟨true, "match"⟩] := by
  have named : ident (sanitize "match") = .ok ⟨true, "match"⟩ := rfl
  have made : ((runtimePath "runtime").bind fun path => tokens path (Table.mk "dbo" "match" "match"
      [⟨"dbo", "match", "type", "int"⟩]).declaration).toBool = true := by
    decide +kernel
  obtain ⟨row, done⟩ := exists_ok made
  obtain ⟨path, _, emitted⟩ := bind_ok done
  obtain ⟨type, value, text, tables⟩ := spellings_of_ident named
  exact ⟨path, row, named, type, value, text, emitted, (tables _ rfl).2 path row emitted⟩

end TypedDecl.Declaration
