import TypedDecl.Catalog.TypeMap
import TypedDecl.Proofs.CatalogLayout
import TypedDecl.Proofs.Reading.Types

namespace TypedDecl.Declaration

open Code (Arg Grammar Ident Interior Item Row Token Ty commaIf signIf)
open Code.Parser
open Code.Path (argsPath leadTokens)
open Layout

/-- A row that is read as an argument wherever there is room for it, and has a layout. -/
structure Holdable (row : List Token) (a : Arg) : Prop where
  reads : ∀ more depth, row.length + 2 ≤ more → row.length * 4 + 4 ≤ depth →
    ReadsArg (Grammar.nested more depth) row a
  laid : ∀ n, Laid (a.pieces (Interior.nested (n + 1)))

/-- The text is a type that a field can hold. -/
def FitsField (type : String) : Prop :=
  ∃ row a, typeTokens type = .ok row ∧ Holdable row a

section Nested

variable {more depth : Nat} {ts : List Ty} {lives : List Ident} {trailing : Bool}
  {rest : List Token}

/-- With lists bounded so, the type is read as a part of others as deep as it is long. -/
def NestsIn (more : Nat) (t : Ty) : Prop :=
  ∀ depth, t.tokens.length < more → t.tokens.length ≤ depth →
    ReadsTy (Grammar.nested more (depth + 1)) t.tokens t

/-- A type is read as a part of what is longer. -/
theorem NestsIn.part {t : Ty} (h : NestsIn more t) {n : Nat} (short : t.tokens.length < n)
    (enough : n < more) (deep : n ≤ depth) : ReadsTy (Grammar.nested more depth) t.tokens t := by
  obtain ⟨depth, rfl⟩ := Nat.exists_eq_succ_of_ne_zero (n := depth) (by omega)
  exact h depth (by omega) (by omega)

theorem NestsIn.types (depth : Nat) (held : ∀ t ∈ ts, NestsIn more t)
    (enough : (Item.argTokens (ts.map Ty.tokens)).length < more)
    (deep : (Item.argTokens (ts.map Ty.tokens)).length ≤ depth) :
    List.Forall₂ (ReadsTy (Grammar.nested more (depth + 1))) (ts.map Ty.tokens) ts ∧
      (ts.map Ty.tokens).length < (Grammar.nested more (depth + 1)).more := by
  have each : ∀ t ∈ ts, ReadsTy (Grammar.nested more (depth + 1)) t.tokens t := by
    intro t mem
    have short := Code.length_le_argTokens (List.mem_map_of_mem (f := Ty.tokens) mem)
    exact held t mem depth (by omega) (by omega)
  have filled : ∀ row ∈ ts.map Ty.tokens, row ≠ [] := by
    rw [List.forall_mem_map]
    exact fun t mem => (each t mem).ne_nil
  have short := Code.length_argTokens filled
  refine ⟨?_, ?_⟩
  · rwa [List.forall₂_map_left_iff, List.forall₂_same]
  · rw [Grammar.nested_more]
    omega

/-- Lifetimes and types that are read in their order between angle brackets. -/
theorem NestsIn.args (depth : Nat) (rest : List Token) {args : List Arg}
    (items : args = lives.map .lifetime ++ ts.map .type)
    (held : ∀ t ∈ ts, NestsIn more t)
    (enough : (Item.argTokens (args.map Arg.tokens)).length < more)
    (deep : (Item.argTokens (args.map Arg.tokens)).length ≤ depth) :
    List.Forall₂ (ReadsItem (arg (Grammar.nested more (depth + 1))) (starts ['>'])
        (.punct '>' false :: rest)) (args.map Arg.tokens) args ∧
      (args.map Arg.tokens).length < (Grammar.nested more (depth + 1)).more := by
  have each : ∀ a ∈ args, ReadsItem (arg (Grammar.nested more (depth + 1))) (starts ['>'])
      (.punct '>' false :: rest) a.tokens a ∧ a.tokens ≠ [] := by
    intro a mem
    rcases List.mem_append.mp (items ▸ mem) with life | type
    · obtain ⟨i, -, rfl⟩ := List.mem_map.mp life
      exact ⟨readsItem_life i rest, List.cons_ne_nil _ _⟩
    · obtain ⟨t, here, rfl⟩ := List.mem_map.mp type
      have short : t.tokens.length ≤ (Item.argTokens (args.map Arg.tokens)).length :=
        Code.length_le_argTokens (List.mem_map_of_mem (f := Arg.tokens) mem)
      have whole := held t here depth (by omega) (by omega)
      exact ⟨whole.readsArg rest, whole.ne_nil⟩
  have filled : ∀ row ∈ args.map Arg.tokens, row ≠ [] := by
    rw [List.forall_mem_map]
    exact fun a mem => (each a mem).2
  have short := Code.length_argTokens filled
  refine ⟨?_, ?_⟩
  · rw [List.forall₂_map_left_iff, List.forall₂_same]
    exact fun a mem => (each a mem).1
  · rw [Grammar.nested_more]
    omega

/-- A literal is read as a length. -/
theorem valueRow_number {more depth : Nat} {length : Row} {text : String} (some_more : 0 < more)
    (number : Code.Literal.isNumber text = true) (row : length.tokens = [.literal text])
    (rest : List Token) :
    (Grammar.nested more (depth + 1)).valueRow (length.tokens ++ .closing .bracket :: rest) =
      some (length, .closing .bracket :: rest) := by
  have operand : Operand (Grammar.nested more depth) 0 [.literal text] (.literal text) :=
    operand_literal (by simpa using some_more) text
  have value := (value_of_operand operand some_more fun _ => rfl) (.closing .bracket :: rest) rfl
  have tokens : (Code.Expr.literal text).tokens = length.tokens := by
    rw [row, Code.Expr.tokens, Code.literalTokens]
    have truth : text ≠ "true" := by
      rintro rfl
      revert number
      decide
    have falsehood : text ≠ "false" := by
      rintro rfl
      revert number
      decide
    simp [truth, falsehood]
  have whole : Row.of? (Code.Expr.literal text).tokens = some length := by
    rw [tokens, Row.of?, dif_pos length.closed]
  have read : (Grammar.nested more (depth + 1)).value
      ([.literal text] ++ .closing .bracket :: rest) =
        some (.literal text, .closing .bracket :: rest) := value.1
  rw [row, Grammar.valueRow, read]
  simp [whole]

theorem read_names (global : Bool) {is : List Ident} {j : Ident}
    (leads : ∀ i ∈ is, isRoot i = true ∨ i.isName = true) (last : j.isName = true)
    (enough : (Ty.path (.plain (.mk global (argsPath is j .none).segments))).tokens.length < more)
    (ends : endsTy rest = true) (plus : Bool) :
    ty (Grammar.nested more depth) plus
        ((Ty.path (.plain (.mk global (argsPath is j .none).segments))).tokens ++ rest) =
      some (.path (.plain (.mk global (argsPath is j .none).segments)), rest) := by
  have row : (Ty.path (.plain (.mk global (argsPath is j .none).segments))).tokens =
      signIf colons global ++ (leadTokens is ++ [.ident j]) :=
    Code.Path.tokens_mk_argsPath global is j .none
  have lead := Code.Path.length_le_leadTokens is
  rw [row, List.length_append, List.length_append] at enough
  have names : is.length < (Grammar.nested more depth).more := by
    rw [Grammar.nested_more]
    omega
  have closed : sign? colons rest = none := sign?_endsTy ends _ (by decide)
  have plain : starts ['#'] rest = false := by simp [starts, sign?_endsTy ends]
  have read := path_names leads last names (segmentArgs_endsTy ends false) closed
  rw [Code.Path.ofNames_append] at read
  rw [row, List.append_assoc, List.append_assoc, List.singleton_append]
  exact ty_lead global leads last read plain ends plus

theorem read_args (global : Bool) {is : List Ident} {j : Ident}
    (leads : ∀ i ∈ is, isRoot i = true ∨ i.isName = true) (last : j.isName = true)
    {args : List Arg} (items : args = lives.map .lifetime ++ ts.map .type)
    (held : ∀ t ∈ ts, NestsIn more t) (ended : lives = [] → ts = [] → trailing = false)
    {t : Ty} (whole : t = .path (.plain (.mk global
      (argsPath is j (.angle false args trailing)).segments)))
    (enough : t.tokens.length < more) (deep : t.tokens.length ≤ depth)
    (ends : endsTy rest = true) (plus : Bool) :
    ty (Grammar.nested more depth) plus (t.tokens ++ rest) = some (t, rest) := by
  let listed := Item.argTokens (args.map Arg.tokens) ++ commaIf trailing
  have row : t.tokens = signIf colons global ++ (leadTokens is ++ .ident j :: .punct '<' false ::
      (listed ++ [.punct '>' false])) := by
    have given := Code.Path.tokens_mk_argsPath global is j (.angle false args trailing)
    rw [items, Code.Args.tokens_listed lives ts ended, ← items] at given
    rw [whole]
    exact given
  have lead := Code.Path.length_le_leadTokens is
  rw [row] at enough deep ⊢
  simp only [listed, List.length_append, List.length_cons, List.length_nil] at enough deep
  obtain ⟨depth, rfl⟩ := Nat.exists_eq_succ_of_ne_zero (n := depth) (by omega)
  obtain ⟨reads, several⟩ := NestsIn.args depth rest items held (by omega) (by omega)
  have names : is.length < (Grammar.nested more (depth + 1)).more := by
    rw [Grammar.nested_more]
    omega
  have none : args = [] → trailing = false := by simpa [items] using ended
  have read := path_args leads last names (angle_args reads several none) ends
  have behind : signIf colons global ++ (leadTokens is ++ Token.ident j :: .punct '<' false ::
      (listed ++ [.punct '>' false])) ++ rest =
        signIf colons global ++ (leadTokens is ++ Token.ident j :: .punct '<' false ::
          (listed ++ .punct '>' false :: rest)) := by
    simp
  rw [behind, whole]
  exact ty_lead global leads last read rfl ends plus

end Nested

/-- The types that are paths of names, with lifetimes and such types between angle brackets behind
the last or without, and what tuples, arrays, references and pointers make of them. -/
inductive Ordinary : Ty → Prop
  | names (global : Bool) {is : List Ident} {j : Ident}
      (leads : ∀ i ∈ is, isRoot i = true ∨ i.isName = true) (last : j.isName = true) :
      Ordinary (.path (.plain (.mk global (argsPath is j .none).segments)))
  | args (global : Bool) {is : List Ident} {j : Ident} {lives : List Ident} {ts : List Ty}
      {trailing : Bool} (leads : ∀ i ∈ is, isRoot i = true ∨ i.isName = true)
      (last : j.isName = true) (held : ∀ t ∈ ts, Ordinary t)
      (ended : lives = [] → ts = [] → trailing = false) :
      Ordinary (.path (.plain (.mk global
        (argsPath is j (.angle false (lives.map .lifetime ++ ts.map .type) trailing)).segments)))
  | tuple {ts : List Ty} {trailing : Bool} (held : ∀ t ∈ ts, Ordinary t)
      (ended : ts = [] → trailing = false) (alone : ∀ t, ts = [t] → trailing = true) :
      Ordinary (.tuple ts trailing)
  | paren {t : Ty} (held : Ordinary t) : Ordinary (.paren t)
  | slice {t : Ty} (held : Ordinary t) : Ordinary (.slice t)
  | array {t : Ty} {length : Row} {text : String} (held : Ordinary t)
      (number : Code.Literal.isNumber text = true) (row : length.tokens = [.literal text]) :
      Ordinary (.array t length)
  | reference {t : Ty} (life : Option Ident) (writable : Bool) (held : Ordinary t) :
      Ordinary (.reference life writable t)
  | pointer {t : Ty} (writable : Bool) (held : Ordinary t) : Ordinary (.pointer writable t)
  | never : Ordinary .never
  | infer : Ordinary .infer

namespace Ordinary

variable {t : Ty}

theorem opens (h : Ordinary t) (rest : List Token) : Opens (t.tokens ++ rest) := by
  have lead (global : Bool) {is : List Ident} {j : Ident} {args : Code.Args}
      (leads : ∀ i ∈ is, isRoot i = true ∨ i.isName = true) (last : j.isName = true) :
      Opens ((Ty.path (.plain (.mk global (argsPath is j args).segments))).tokens ++ rest) := by
    have row : (Ty.path (.plain (.mk global (argsPath is j args).segments))).tokens =
        _ := Code.Path.tokens_mk_argsPath global is j args
    rw [row]
    cases global with
    | true => exact .sign true rfl
    | false =>
      cases is with
      | nil => exact .lead (.inr last)
      | cons i is => exact .lead (leads i List.mem_cons_self)
  cases h with
  | names global leads last => exact lead global leads last
  | args global leads last => exact lead global leads last
  | tuple | paren | slice | array =>
    simp only [Ty.tokens, Token.group, List.cons_append]
    exact .group (by decide)
  | reference | pointer | never => exact .sign false rfl
  | infer => exact .blank

theorem nestsIn (h : Ordinary t) (more : Nat) : NestsIn more t := by
  -- The parts of a type are shorter than it is, and are read a level deeper.
  induction h with
  | names global leads last =>
    intro depth enough deep
    exact ⟨(names global leads last).opens, fun _ ends plus =>
      read_names global leads last enough ends plus⟩
  | args global leads last held ended ih =>
    intro depth enough deep
    exact ⟨(args global leads last held ended).opens, fun _ ends plus =>
      read_args global leads last rfl ih ended rfl enough deep ends plus⟩
  | @tuple ts trailing held ended alone ih =>
    intro depth enough deep
    refine ⟨(tuple held ended alone).opens, fun rest ends plus => ?_⟩
    have row : (Ty.tuple ts trailing).tokens =
        Token.group .paren (Item.argTokens (ts.map Ty.tokens) ++ commaIf trailing) := by
      rw [Ty.tokens, Code.Ty.listTokens_eq]
    rw [row] at enough deep ⊢
    simp only [Token.group, List.length_append, List.length_cons] at enough deep
    obtain ⟨depth, rfl⟩ := Nat.exists_eq_succ_of_ne_zero (n := depth) (by omega)
    obtain ⟨reads, several⟩ := NestsIn.types depth ih (by omega) (by omega)
    exact ty_tuple reads several ended alone plus
  | @paren t held ih =>
    intro depth enough deep
    have short : t.tokens.length < (Ty.paren t).tokens.length := by
      simp only [Ty.tokens, Token.group, List.length_append, List.length_cons]
      omega
    refine ⟨(paren held).opens, fun rest ends plus => ?_⟩
    rw [Ty.tokens]
    exact ty_paren (ih.part short enough deep) (by rw [Grammar.nested_more]; omega) ends plus
  | @slice t held ih =>
    intro depth enough deep
    have short : t.tokens.length < (Ty.slice t).tokens.length := by
      simp only [Ty.tokens, Token.group, List.length_append, List.length_cons]
      omega
    refine ⟨(slice held).opens, fun rest ends plus => ?_⟩
    rw [Ty.tokens]
    exact ty_slice (ih.part short enough deep) plus
  | @array t length text held number row ih =>
    intro depth enough deep
    have short : t.tokens.length < (Ty.array t length).tokens.length := by
      simp only [Ty.tokens, Token.group, List.length_append, List.length_cons]
      omega
    have item := ih.part short enough deep
    obtain ⟨depth, rfl⟩ := Nat.exists_eq_succ_of_ne_zero (n := depth) (by omega)
    refine ⟨(array held number row).opens, fun rest ends plus => ?_⟩
    rw [Ty.tokens]
    exact ty_array item (valueRow_number (by omega) number row) plus
  | @reference t life writable held ih =>
    intro depth enough deep
    have row : (Ty.reference life writable t).tokens =
        Token.operator ['&'] ++ life.elim [] Token.lifetime ++ Code.wordIf "mut" writable ++
          t.tokens := by
      cases life <;> rfl
    have short : t.tokens.length < (Ty.reference life writable t).tokens.length := by
      rw [row]
      simp only [Token.operator, List.length_append, List.length_cons]
      omega
    refine ⟨(reference life writable held).opens, fun rest ends plus => ?_⟩
    rw [row]
    exact ty_reference (ih.part short enough deep) life writable ends plus
  | @pointer t writable held ih =>
    intro depth enough deep
    have short : t.tokens.length < (Ty.pointer writable t).tokens.length := by
      simp only [Ty.tokens, Token.operator, List.length_append, List.length_cons]
      omega
    refine ⟨(pointer writable held).opens, fun rest ends plus => ?_⟩
    rw [Ty.tokens]
    exact ty_pointer (ih.part short enough deep) writable ends plus
  | never =>
    intro depth enough deep
    exact ⟨never.opens, fun rest ends plus => ty_never plus⟩
  | infer =>
    intro depth enough deep
    exact ⟨infer.opens, fun rest ends plus => ty_infer plus⟩

/-- What is written in brackets behind a type has a layout. -/
theorem laid_length {n : Nat} {length : Row} {text : String}
    (row : length.tokens = [.literal text]) :
    Laid ((Interior.nested (n + 1)).expr length.tokens) := by
  have pieces : (Interior.nested (n + 1)).expr [.literal text] = words text := rfl
  rw [row, pieces]
  exact laid_words text

theorem laid (h : Ordinary t) (n : Nat) : Laid (t.pieces (Interior.nested (n + 1))) := by
  induction h with
  | names global leads last => exact laid_path global _ _ laid_nil
  | @args global is j lives ts trailing leads last held ended ih =>
    refine laid_path global _ _ (laid_angle trailing fun a mem => ?_)
    rcases List.mem_append.mp mem with life | type
    · obtain ⟨i, -, rfl⟩ := List.mem_map.mp life
      exact laid_words _
    · obtain ⟨t, here, rfl⟩ := List.mem_map.mp type
      exact ih t here
  | @tuple ts trailing held ended alone ih =>
    have rows : ∀ row ∈ Ty.listPieces (Interior.nested (n + 1)) ts, Laid row := by
      clear held ended alone
      induction ts with
      | nil => exact List.forall_mem_nil _
      | cons t ts inner =>
        rw [List.forall_mem_cons] at ih
        exact List.forall_mem_cons.mpr ⟨ih.1, inner ih.2⟩
    have content : Laid (Code.tuplePieces (Ty.listPieces (Interior.nested (n + 1)) ts)) := by
      unfold Code.tuplePieces
      split
      · next item one =>
        rw [one] at rows
        simp [rows item (by simp)]
      · exact laid_commaList rows
    exact laid_append.mpr ⟨laid_append.mpr ⟨laid_words _, content⟩, laid_words _⟩
  | paren held ih => exact laid_append.mpr ⟨laid_append.mpr ⟨laid_words _, ih⟩, laid_words _⟩
  | slice held ih => exact laid_append.mpr ⟨laid_append.mpr ⟨laid_words _, ih⟩, laid_words _⟩
  | @array t length text held number row ih =>
    have pieces : (Ty.array t length).pieces (Interior.nested (n + 1)) =
        words "[" ++ t.pieces (Interior.nested (n + 1)) ++ words "; " ++
          (Interior.nested (n + 1)).expr length.tokens ++ words "]" := rfl
    rw [pieces]
    simp [ih, laid_length row]
  | @reference t life writable held ih =>
    have pieces : (Ty.reference life writable t).pieces (Interior.nested (n + 1)) =
        words "&" ++ life.elim [] (fun i => words (Code.lifetimeText i) ++ words " ") ++
          Code.wordsIf "mut " writable ++ t.pieces (Interior.nested (n + 1)) := by
      cases life <;> rfl
    rw [pieces]
    cases life <;> cases writable <;> simp [Code.wordsIf, ih]
  | @pointer t writable held ih =>
    have pieces : (Ty.pointer writable t).pieces (Interior.nested (n + 1)) =
        words "*" ++ words (if writable then "mut " else "const ") ++
          t.pieces (Interior.nested (n + 1)) := rfl
    rw [pieces]
    simp [ih]
  | never => exact laid_words _
  | infer => exact laid_words _

/-- A type of this kind is taken as what it says. -/
theorem parse?_eq {type : String} (read : Token.read? type = some t.tokens) (h : Ordinary t) :
    Ty.parse? type = some t := by
  have nested := h.nestsIn (t.tokens.length + 2) (t.tokens.length * 4 + 3) (by omega) (by omega)
  have here := nested.read [] rfl true
  rw [List.append_nil] at here
  have reader : (Grammar.forRow t.tokens).ty true t.tokens =
      (Grammar.nested (t.tokens.length + 2) (t.tokens.length * 4 + 4)).ty true t.tokens := rfl
  rw [Ty.parse?, read, Option.bind_some, Ty.ofTokens?, all?, reader, here]

/-- A type of this kind can be held, whatever text it is the type of. -/
theorem fitsField {type : String} (parsed : Ty.parse? type = some t) (h : Ordinary t) :
    FitsField type := by
  refine ⟨t.tokens, .type t, ?_, fun more depth enough deep rest => ?_, h.laid⟩
  · rw [typeTokens, parsed]
  · obtain ⟨depth, rfl⟩ := Nat.exists_eq_succ_of_ne_zero (n := depth) (by omega)
    have nested := h.nestsIn more depth (by omega) (by omega)
    have several : [t.tokens].length < (Grammar.nested more (depth + 1)).more := by
      rw [Grammar.nested_more, List.length_singleton]
      omega
    have ended : [Arg.type t] = [] → false = false := fun _ => rfl
    have one := angle_args (.cons (nested.readsArg rest) .nil) several ended
    simpa [argTokens_singleton, commaIf, signIf] using one

end Ordinary

section Standard

/-- The standard targets that are paths, with their names. -/
def standardPaths : List (String × List Ident × Ident) :=
  ["i64", "bool", "String", "f64", "i32", "f32", "i16", "u8"].map (fun w => (w, [], plain w)) ++
    ["NaiveDate", "NaiveDateTime", "NaiveTime"].map
      (fun w => ("chrono::" ++ w, [plain "chrono"], plain w)) ++
    [("uuid::Uuid", [plain "uuid"], plain "Uuid")]

theorem mem_standard : ∀ e ∈ TypeMap.standard.targets.entries,
    e.2 ∈ ["Vec<u8>", "chrono::DateTime<chrono::FixedOffset>"] ++ standardPaths.map Prod.fst := by
  decide +kernel

theorem read?_standardPath : ∀ e ∈ standardPaths,
    Token.read? e.1 = some (leadTokens e.2.1 ++ [.ident e.2.2]) ∧
      ∀ i ∈ e.2.2 :: e.2.1, i.isName = true := by
  decide +kernel

/-- The types that catalogs have by themselves are of this kind. -/
theorem ordinary_standard {native type : String} (h : TypeMap.standard.get? native = some type) :
    ∃ t, Token.read? type = some t.tokens ∧ Ordinary t := by
  obtain ⟨e, mem, rfl⟩ : ∃ e ∈ TypeMap.standard.targets.entries, e.2 = type := by
    obtain ⟨before, behind, entries, -⟩ := List.lookup_eq_some_iff.mp h
    exact ⟨(foldCase native, type), by simp [entries], rfl⟩
  rcases List.mem_append.mp (mem_standard e mem) with held | path
  · simp only [List.mem_cons, List.not_mem_nil, or_false] at held
    have alone {is : List Ident} {j : Ident} {t : Ty}
        (leads : ∀ i ∈ is, isRoot i = true ∨ i.isName = true) (last : j.isName = true)
        (h : Ordinary t) : Ordinary (.path (.plain
          (.mk false (argsPath is j (.angle false [.type t] false)).segments))) := by
      have args : ∀ u ∈ [t], Ordinary u := by simpa using h
      have ended : ([] : List Ident) = [] → [t] = [] → false = false := fun _ _ => rfl
      exact .args false leads last args ended
    rcases held with bytes | time
    · have none : ∀ i ∈ ([] : List Ident), isRoot i = true ∨ i.isName = true :=
        List.forall_mem_nil _
      have byte : Ordinary (.path (.plain (.mk false (argsPath [] (plain "u8") .none).segments))) :=
        .names false none (by decide)
      rw [bytes]
      exact ⟨_, rfl, alone (j := plain "Vec") none (by decide) byte⟩
    · have crate : ∀ i ∈ [plain "chrono"], isRoot i = true ∨ i.isName = true := by decide
      have offset : Ordinary (.path (.plain
          (.mk false (argsPath [plain "chrono"] (plain "FixedOffset") .none).segments))) :=
        .names false crate (by decide)
      rw [time]
      exact ⟨_, rfl, alone (j := plain "DateTime") crate (by decide) offset⟩
  · obtain ⟨p, here, same⟩ := List.mem_map.mp path
    obtain ⟨read, names⟩ := read?_standardPath p here
    obtain ⟨last, others⟩ := List.forall_mem_cons.mp names
    rw [← same]
    have row : (Ty.path (.plain (.mk false (argsPath p.2.1 p.2.2 .none).segments))).tokens =
        leadTokens p.2.1 ++ [.ident p.2.2] := Code.Path.tokens_argsPath p.2.1 p.2.2 .none
    exact ⟨_, row ▸ read, .names false (fun i mem => .inr (others i mem)) last⟩

/-- Fields can hold the types that catalogs have by themselves. -/
theorem fitsField_standard {native type : String}
    (h : TypeMap.standard.get? native = some type) : FitsField type := by
  obtain ⟨t, read, ordinary⟩ := ordinary_standard h
  exact ordinary.fitsField (ordinary.parse?_eq read)

end Standard

end TypedDecl.Declaration
