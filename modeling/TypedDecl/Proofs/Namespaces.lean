import Mathlib.Data.List.Forall2
import TypedDecl.Proofs.FileCode
import TypedDecl.Proofs.Lexemes

namespace TypedDecl.Code.Ident

open Unicode (isBlank isIdentStart isIdentContinue)

variable {s : String} {i : Ident} {c : Char}

/-- A text as what it names: an identifier as it is written, or a keyword without its mark. -/
inductive Spells : String → Ident → Prop
  | identifier {i : Ident} (written : i.Written) (named : i.isName = true) : Spells i.text i
  | keyword {s : String} (written : (Ident.mk true s).Written)
      (keyword : keywords.contains s = true) : Spells s ⟨true, s⟩

/-- A namespace is neither cut nor trimmed at such a character. -/
structure Solid (c : Char) : Prop where
  ink : isBlank c = false
  point : c ≠ '.'
  colon : c ≠ ':'

theorem isBlank_of_isIdentStart (h : isIdentStart c = true) : isBlank c = false := by
  have space := (Lexer.outside_of_isIdentStart h).1
  simp only [Lexer.isSpace, Bool.or_eq_false_iff] at space
  exact space.1.1

theorem Solid.first (h : isIdentStart c = true) : Solid c :=
  ⟨isBlank_of_isIdentStart h, ne_of_isIdentStart h rfl, ne_of_isIdentStart h rfl⟩

theorem Solid.other (h : isIdentContinue c = true) : Solid c := by
  refine ⟨?_, ne_of_isIdentContinue h rfl, ne_of_isIdentContinue h rfl⟩
  cases blank : isBlank c with
  | false => rfl
  | true =>
    have space : Lexer.isSpace c = true := by simp [Lexer.isSpace, blank]
    have none := (Lexer.isIdent_space space).2
    rw [h] at none
    cases none

theorem Written.begins (h : i.Written) :
    ∃ c cs, i.text.toList = c :: cs ∧ isIdentStart c = true ∧ ∀ d ∈ cs, Solid d := by
  obtain ⟨raw, name⟩ := i
  obtain ⟨written, _⟩ := h
  simp only at written
  generalize chars : name.toList = cs at written
  obtain @⟨c, cs, first, others⟩ := written
  have solid : ∀ d ∈ cs, Solid d := fun d hd => .other (others d hd)
  cases raw with
  | false => exact ⟨c, cs, chars, first, solid⟩
  | true =>
    have text : (Ident.mk true name).text.toList = 'r' :: '#' :: c :: cs := by
      simp [Ident.text, chars]
    have mark : Solid '#' := ⟨rfl, by decide, by decide⟩
    exact ⟨'r', '#' :: c :: cs, text, rfl,
      List.forall_mem_cons.mpr ⟨mark, List.forall_mem_cons.mpr ⟨.first first, solid⟩⟩⟩

theorem Written.solid (h : i.Written) : i.text.toList ≠ [] ∧ ∀ c ∈ i.text.toList, Solid c := by
  obtain ⟨c, cs, text, first, others⟩ := h.begins
  rw [text]
  exact ⟨List.cons_ne_nil _ _, List.forall_mem_cons.mpr ⟨.first first, others⟩⟩

/-- The mark of a keyword is not written. -/
theorem Written.plain (h : i.Written) : (Ident.plain i.name).Written :=
  ⟨h.name, fun raw => by cases raw⟩

theorem parse?_text (h : i.Written) : parse? i.text = if i.isName then some i else none := by
  have unmarked : i.text.toList.head? ≠ some '\ufeff' := by
    obtain ⟨c, cs, text, first, _⟩ := h.begins
    rw [text]
    have none : isIdentStart '\ufeff' = false := by decide +kernel
    exact fun mark => ne_of_isIdentStart first none (Option.some.inj mark)
  have row := (Lexer.Lexes.ident h Apart.nil).read? (Lexer.dropMark_eq_self unmarked)
  rw [parse?, row]

namespace Spells

theorem solid (h : Spells s i) : s.toList ≠ [] ∧ ∀ c ∈ s.toList, Solid c := by
  cases h with
  | identifier written => exact written.solid
  | keyword written => exact written.plain.solid

theorem ofName? (h : Spells s i) : Ident.ofName? s = some i := by
  cases h with
  | identifier written named =>
    rw [Ident.ofName?, parse?_text written, if_pos named]
    rfl
  | keyword written keyword =>
    have unnamed : (Ident.plain s).isName = false := by
      rw [isName, Ident.plain, keyword]
      rfl
    have none : parse? s = none := by
      have parsed := parse?_text written.plain
      rwa [unnamed] at parsed
    have raw := parse?_text written
    rw [Ident.ofName?, none]
    exact raw

end Spells

end TypedDecl.Code.Ident

namespace TypedDecl.Namespace

open Code (Ident Token)
open Code.Token (word)
open Unicode (isBlank trimChars)

section Cutting

/-- The texts between two colons and the next two, from the left. -/
def cutColons : List Char → List (List Char)
  | [] => [[]]
  | ':' :: ':' :: cs => [] :: cutColons cs
  | c :: cs => (cutColons cs).modifyHead (c :: ·)

/-- The parts of a text: cut at the first two colons that stand together, and on behind them. -/
inductive Cut : List Char → List (List Char) → Prop
  | last {cs : List Char} (none : ¬ [':', ':'] <:+: cs) : Cut cs [cs]
  | next {p cs : List Char} {parts : List (List Char)} (first : ¬ [':', ':'] <:+: p ++ [':'])
      (others : Cut cs parts) : Cut (p ++ ':' :: ':' :: cs) (p :: parts)

theorem cutColons_cons {c : Char} {cs : List Char} (h : ¬ [':', ':'] <+: c :: cs) :
    cutColons (c :: cs) = (cutColons cs).modifyHead (c :: ·) := by
  rw [cutColons]
  rintro ds rfl rfl
  exact h ⟨ds, rfl⟩

theorem cutColons_of_cut {cs : List Char} {parts : List (List Char)} (h : Cut cs parts) :
    cutColons cs = parts := by
  induction h with
  | @last cs none =>
    induction cs with
    | nil => rfl
    | cons c cs ih =>
      rw [List.infix_cons_iff, not_or] at none
      rw [cutColons_cons none.1, ih none.2]
      rfl
  | @next p cs parts first _ ih =>
    induction p with
    | nil => rw [List.nil_append, cutColons, ih]
    | cons c p inner =>
      rw [List.cons_append, List.infix_cons_iff, not_or] at first
      have apart : ¬ [':', ':'] <+: c :: (p ++ ':' :: ':' :: cs) := by
        cases p <;> simpa using first.1
      rw [List.cons_append, cutColons_cons apart, inner first.2]
      rfl

theorem not_colons_first {c : Char} {cs : List Char} (h : ∀ ds, c = ':' → cs = ':' :: ds → False) :
    ¬ [':', ':'] <+: c :: cs := by
  rintro ⟨ds, whole⟩
  obtain ⟨rfl, rfl⟩ := List.cons_eq_cons.mp whole
  exact h ds rfl rfl

theorem cut_cutColons (cs : List Char) : Cut cs (cutColons cs) := by
  fun_induction cutColons cs with
  | case1 => exact .last (by simp)
  | case2 cs ih =>
    have first : ¬ [':', ':'] <:+: ([] ++ [':'] : List Char) := fun some_colons => by
      simpa using some_colons.length_le
    exact .next first ih
  | case3 c cs other ih =>
    have apart := not_colons_first other
    generalize cutColons cs = parts at ih
    cases ih with
    | last none => exact .last (by rw [List.infix_cons_iff, not_or]; exact ⟨apart, none⟩)
    | @next p cs parts first others =>
      refine .next (p := c :: p) ?_ others
      rw [List.cons_append, List.infix_cons_iff, not_or]
      refine ⟨?_, first⟩
      cases p <;> simpa using apart

/-- The parts of a text are fixed: the first colons are the first. -/
theorem cutColons_eq_iff {cs : List Char} {parts : List (List Char)} :
    cutColons cs = parts ↔ Cut cs parts :=
  ⟨fun h => h ▸ cut_cutColons cs, cutColons_of_cut⟩

/-- The parts of a namespace: cut at two colons, then at points, and without the blanks around. -/
def parts (text : String) : List String :=
  ((cutColons text.toList).flatMap (List.splitOn '.')).map fun cs => String.ofList (trimChars cs)

/-- What one more character in front does to the parts. -/
theorem flatMap_splitOn_cons (c : Char) {parts : List (List Char)} (h : parts ≠ []) :
    (parts.modifyHead (c :: ·)).flatMap (List.splitOn '.') =
      if c = '.' then [] :: parts.flatMap (List.splitOn '.')
      else (parts.flatMap (List.splitOn '.')).modifyHead (c :: ·) := by
  cases parts with
  | nil => exact absurd rfl h
  | cons p parts =>
    obtain ⟨q, qs, cut⟩ := List.exists_cons_of_ne_nil (List.splitOn_ne_nil '.' p)
    by_cases point : c = '.'
    · simp [List.splitOn_cons_eq_if_modifyHead, cut, point]
    · simp [List.splitOn_cons_eq_if_modifyHead, cut, point]

theorem cutColons_ne_nil (cs : List Char) : cutColons cs ≠ [] := by
  fun_induction cutColons cs <;> simp_all

theorem modifyHead_nothing (parts : List (List Char)) :
    parts.modifyHead (([] : List Char).reverse ++ ·) = parts := by
  cases parts <;> rfl

theorem segmentsGo_eq (acc cs : List Char) :
    segmentsGo acc cs =
      ((cutColons cs).flatMap (List.splitOn '.')).modifyHead (acc.reverse ++ ·) := by
  fun_induction segmentsGo acc cs with
  | case1 acc => simp [cutColons]
  | case2 acc cs ih =>
    rw [ih, modifyHead_nothing, cutColons]
    simp
  | case3 acc cs other ih =>
    have apart : ¬ [':', ':'] <+: '.' :: cs := by simp
    rw [ih, modifyHead_nothing, cutColons_cons apart,
      flatMap_splitOn_cons _ (cutColons_ne_nil cs), if_pos rfl]
    simp
  | case4 acc c cs other point ih =>
    have apart := not_colons_first other
    rw [ih, cutColons_cons apart, flatMap_splitOn_cons _ (cutColons_ne_nil cs), if_neg point,
      List.modifyHead_modifyHead]
    congr 1
    funext part
    simp

theorem segments_eq_parts (text : String) : segments text = parts text := by
  rw [segments, segmentsGo_eq, modifyHead_nothing, parts]

end Cutting

section Joining

variable {n : String} {names : List String} {cs : List Char} {is : List Ident}

/-- A name with white space around it. -/
inductive Padded (n : String) : List Char → Prop
  | intro {left right : List Char} (before : ∀ c ∈ left, isBlank c = true)
      (after : ∀ c ∈ right, isBlank c = true) : Padded n (left ++ n.toList ++ right)

/-- Names with a point or two colons between them, and white space around each. -/
inductive Joined : List String → List Char → Prop
  | last {n : String} {cs : List Char} (only : Padded n cs) : Joined [n] cs
  | point {n : String} {names : List String} {cs ds : List Char} (first : Padded n cs)
      (others : Joined names ds) : Joined (n :: names) (cs ++ '.' :: ds)
  | colons {n : String} {names : List String} {cs ds : List Char} (first : Padded n cs)
      (others : Joined names ds) : Joined (n :: names) (cs ++ ':' :: ':' :: ds)

theorem trimChars_padded (h : Padded n cs) (some_char : n.toList ≠ [])
    (solid : ∀ c ∈ n.toList, Ident.Solid c) : trimChars cs = n.toList := by
  obtain @⟨left, right, before, after⟩ := h
  have ends (ds rest : List Char) (some_char : ds ≠ []) (solid : ∀ c ∈ ds, Ident.Solid c) :
      (ds ++ rest).dropWhile isBlank = ds ++ rest := by
    obtain ⟨d, ds, rfl⟩ := List.exists_cons_of_ne_nil some_char
    have ink := (solid d List.mem_cons_self).ink
    simp [ink]
  have backwards : ∀ c ∈ n.toList.reverse, Ident.Solid c := by simpa using solid
  have last := ends n.toList.reverse [] (by simpa using some_char) backwards
  rw [trimChars, List.append_assoc, List.dropWhile_append_of_pos before,
    ends n.toList right some_char solid, List.reverse_append,
    List.dropWhile_append_of_pos (by simpa using after)]
  rw [List.append_nil] at last
  rw [last, List.reverse_reverse]

theorem Padded.uncut (h : Padded n cs) (solid : ∀ c ∈ n.toList, Ident.Solid c) :
    ∀ c ∈ cs, c ≠ '.' ∧ c ≠ ':' := by
  obtain @⟨left, right, before, after⟩ := h
  have space {c : Char} (blank : isBlank c = true) : c ≠ '.' ∧ c ≠ ':' := by
    refine ⟨?_, ?_⟩ <;> rintro rfl <;> cases blank
  intro c mem
  rcases List.mem_append.mp mem with mem | mem
  · rcases List.mem_append.mp mem with mem | mem
    · exact space (before c mem)
    · exact ⟨(solid c mem).point, (solid c mem).colon⟩
  · exact space (after c mem)

/-- What no separator stands in goes into one part. -/
theorem segmentsGo_uncut (h : ∀ c ∈ cs, c ≠ '.' ∧ c ≠ ':') (acc rest : List Char) :
    segmentsGo acc (cs ++ rest) = segmentsGo (cs.reverse ++ acc) rest := by
  induction cs generalizing acc with
  | nil => rfl
  | cons c cs ih =>
    rw [List.forall_mem_cons] at h
    have first : segmentsGo acc (c :: (cs ++ rest)) = segmentsGo (c :: acc) (cs ++ rest) := by
      rw [segmentsGo, if_neg h.1.1]
      rintro ds rfl
      exact absurd rfl h.1.2
    rw [List.cons_append, first, ih h.2, List.reverse_cons, List.append_assoc]
    rfl

/-- A name with white space around it, in front of a separator or of nothing. -/
theorem trimChars_part (h : Padded n cs) (some_char : n.toList ≠ [])
    (solid : ∀ c ∈ n.toList, Ident.Solid c) :
    String.ofList (trimChars (cs.reverse ++ []).reverse) = n := by
  rw [List.append_nil, List.reverse_reverse, trimChars_padded h some_char solid,
    String.ofList_toList]

theorem map_segmentsGo_joined (h : Joined names cs)
    (solid : ∀ n ∈ names, n.toList ≠ [] ∧ ∀ c ∈ n.toList, Ident.Solid c) :
    (segmentsGo [] cs).map (fun part => String.ofList (trimChars part)) = names := by
  induction h with
  | last only =>
    obtain ⟨some_char, ink⟩ := solid _ List.mem_cons_self
    have one := segmentsGo_uncut (only.uncut ink) [] []
    rw [List.append_nil] at one
    rw [one, segmentsGo, List.map_singleton, trimChars_part only some_char ink]
  | point first _ ih =>
    rw [List.forall_mem_cons] at solid
    obtain ⟨⟨some_char, ink⟩, solid⟩ := solid
    rw [segmentsGo_uncut (first.uncut ink), segmentsGo, if_pos rfl, List.map_cons,
      trimChars_part first some_char ink, ih solid]
    simp
  | colons first _ ih =>
    rw [List.forall_mem_cons] at solid
    obtain ⟨⟨some_char, ink⟩, solid⟩ := solid
    rw [segmentsGo_uncut (first.uncut ink), segmentsGo, List.map_cons,
      trimChars_part first some_char ink, ih solid]

/-- The segments are the names, whatever stands between them. -/
theorem segments_joined {text : String} (h : Joined names text.toList)
    (spelled : List.Forall₂ Ident.Spells names is) : segments text = names := by
  have solid := spelled.imp fun _ _ spells => And.intro spells.solid spells
  exact map_segmentsGo_joined h ((List.forall₂_and_left _ _).mp solid).1

end Joining

section Outcome

variable {n text : String} {names : List String} {items ts : List Token} {e : Error}

/-- Modules inside each other: what opens them, in order, then the items, and then what closes
them. -/
theorem nestTokens_eq (is : List Ident) (items : List Token) :
    nestTokens is items =
      is.flatMap (fun i => [word "pub", word "mod", .ident i, .opening .brace]) ++ items ++
        List.replicate is.length (.closing .brace) := by
  induction is with
  | nil => simp [nestTokens]
  | cons i is ih =>
    rw [nestTokens, ih, List.length_cons, List.replicate_succ']
    simp [Code.Item.publicTokens, Code.Item.moduleTokens, Token.group]

theorem ident_of_spells (h : Ident.Spells n i) : Declaration.ident n = .ok i := by
  rw [Declaration.ident, h.ofName?]

theorem ident_empty : Declaration.ident "" = .error (.invalidName "") := rfl

theorem invalidName_of_ident {e : Error} (h : Declaration.ident n = .error e) :
    e = .invalidName n := by
  unfold Declaration.ident at h
  split at h
  · cases h
  · exact (Except.error.inj h).symm

theorem nest_cons (n : String) (names : List String) (items : List Token) :
    nest (n :: names) items =
      (nest names items).bind fun inner =>
        (Declaration.ident n).map fun i =>
          Code.Item.publicTokens (Code.Item.moduleTokens i inner) :=
  List.foldrM_cons

theorem exists_ident {is : List Ident}
    (h : List.Forall₂ (fun n i => Declaration.ident n = .ok i) names is) :
    ∀ n ∈ names, ∃ i, Declaration.ident n = .ok i :=
  ((List.forall₂_and_left _ _).mp (h.imp fun _ i taken => ⟨⟨i, taken⟩, taken⟩)).1

theorem exists_ident_of_nest {ts : List Token} (h : nest names items = .ok ts) :
    ∀ n ∈ names, ∃ i, Declaration.ident n = .ok i := by
  obtain ⟨is, spelled, _⟩ := nest_ok h
  exact exists_ident spelled

/-- The last name that is refused is the one that is told of. -/
theorem nest_error {e : Error} (h : nest names items = .error e) :
    ∃ front n back, names = front ++ n :: back ∧ Declaration.ident n = .error e ∧
      ∀ b ∈ back, ∃ i, Declaration.ident b = .ok i := by
  induction names with
  | nil => cases h
  | cons n names ih =>
    rw [nest_cons] at h
    cases inner : nest names items with
    | error e' =>
      rw [inner] at h
      obtain rfl : e' = e := Except.error.inj h
      obtain ⟨front, m, back, rfl, refused, taken⟩ := ih inner
      exact ⟨n :: front, m, back, rfl, refused, taken⟩
    | ok ts =>
      rw [inner] at h
      cases first : Declaration.ident n with
      | ok i =>
        rw [first] at h
        cases h
      | error e' =>
        rw [first] at h
        obtain rfl : e' = e := Except.error.inj h
        exact ⟨[], n, names, rfl, first, exists_ident_of_nest inner⟩

theorem exists_nest (h : ∀ n ∈ names, ∃ i, Declaration.ident n = .ok i) (items : List Token) :
    ∃ ts, nest names items = .ok ts := by
  cases nested : nest names items with
  | ok ts => exact ⟨ts, rfl⟩
  | error e =>
    obtain ⟨front, n, back, rfl, refused, _⟩ := nest_error nested
    obtain ⟨i, taken⟩ := h n (by simp)
    rw [refused] at taken
    cases taken

theorem all_isEmpty_iff : names.all String.isEmpty = true ↔ ∀ s ∈ names, s = "" := by
  simp [List.all_eq_true]

theorem tokens_of_empty (h : ∀ s ∈ segments text, s = "") (items : List Token) :
    tokens text items = .error .emptyNamespace := by
  rw [tokens, if_pos (all_isEmpty_iff.mpr h)]

theorem tokens_of_some (h : ¬ ∀ s ∈ segments text, s = "") (items : List Token) :
    tokens text items = (nest (segments text) items).map (allowances ++ ·) := by
  rw [tokens, if_neg (mt all_isEmpty_iff.mp h)]

/-- An empty part is refused, so a text of empty parts has one that is. -/
theorem some_part (h : ∀ s ∈ segments text, ∃ i, Declaration.ident s = .ok i) :
    ¬ ∀ s ∈ segments text, s = "" := by
  intro empty
  obtain ⟨s, others, cut⟩ := List.exists_cons_of_ne_nil (segments_ne_nil text)
  have first : s ∈ segments text := by simp [cut]
  obtain ⟨i, taken⟩ := h s first
  rw [empty s first, ident_empty] at taken
  cases taken

theorem exists_tokens_iff :
    (∃ ts, tokens text items = .ok ts) ↔
      ∀ s ∈ segments text, ∃ i, Declaration.ident s = .ok i := by
  constructor
  · rintro ⟨ts, h⟩
    obtain ⟨i, is, spelled, _⟩ := tokens_ok h
    exact exists_ident spelled
  · intro taken
    obtain ⟨ts, nested⟩ := exists_nest taken items
    exact ⟨allowances ++ ts, by rw [tokens_of_some (some_part taken), nested]; rfl⟩

theorem tokens_error (h : ¬ ∀ s ∈ segments text, s = "") (failed : tokens text items = .error e) :
    ∃ front s back, segments text = front ++ s :: back ∧ e = .invalidName s ∧
      Declaration.ident s = .error e ∧ ∀ b ∈ back, ∃ i, Declaration.ident b = .ok i := by
  rw [tokens_of_some h] at failed
  cases nested : nest (segments text) items with
  | ok ts =>
    rw [nested] at failed
    cases failed
  | error e' =>
    rw [nested] at failed
    obtain rfl : e' = e := Except.error.inj failed
    obtain ⟨front, s, back, cut, refused, taken⟩ := nest_error nested
    exact ⟨front, s, back, cut, invalidName_of_ident refused, refused, taken⟩

theorem tokens_emptyNamespace_iff :
    tokens text items = .error .emptyNamespace ↔ ∀ s ∈ segments text, s = "" := by
  refine ⟨fun failed => ?_, fun empty => tokens_of_empty empty items⟩
  by_contra some_name
  obtain ⟨_, s, _, _, named, _⟩ := tokens_error some_name failed
  cases named

/-- Names between separators open their modules in the order in which they are written, and what
stands between the names does not show. Any text is cut into parts: it is a namespace if each part
is a name, it is an empty one if no part has anything in it, and otherwise it is refused for the
last part that is no name. -/
theorem tokens_outcome :
    (∀ (names : List String) (text : String) (is : List Ident), Joined names text.toList →
      List.Forall₂ Ident.Spells names is → ∀ items : List Token,
        tokens text items = .ok (allowances ++
          (is.flatMap (fun i => [word "pub", word "mod", .ident i, .opening .brace]) ++ items ++
            List.replicate is.length (.closing .brace)))) ∧
    ∀ (text : String) (items : List Token),
      ((∃ ts, tokens text items = .ok ts) ↔
        ∀ s ∈ parts text, ∃ i, Declaration.ident s = .ok i) ∧
      (tokens text items = .error .emptyNamespace ↔ ∀ s ∈ parts text, s = "") ∧
      ∀ e, tokens text items = .error e → e ≠ .emptyNamespace →
        ∃ front s back, parts text = front ++ s :: back ∧ e = .invalidName s ∧
          Declaration.ident s = .error e ∧ ∀ b ∈ back, ∃ i, Declaration.ident b = .ok i := by
  refine ⟨fun names text is joined spelled items => ?_, fun text items => ?_⟩
  · have cut := segments_joined joined spelled
    have taken := spelled.imp fun n i spells => ident_of_spells spells
    have some_name : ¬ ∀ s ∈ segments text, s = "" := by
      refine some_part ?_
      rw [cut]
      exact exists_ident taken
    rw [tokens_of_some some_name, cut, nest_eq taken, nestTokens_eq]
    rfl
  · rw [← segments_eq_parts]
    exact ⟨exists_tokens_iff, tokens_emptyNamespace_iff, fun e failed other =>
      tokens_error (mt tokens_emptyNamespace_iff.mpr (by rw [failed]; simpa using other)) failed⟩

/-- Both separators, blanks of several kinds, a name that is no word, a keyword and a raw name. -/
theorem tokens_outcome_mixed :
    Joined ["über", "type", "r#Item"] "\tüber.\u2003type\n::r#Item ".toList ∧
      List.Forall₂ Ident.Spells ["über", "type", "r#Item"]
        [⟨false, "über"⟩, ⟨true, "type"⟩, ⟨true, "Item"⟩] ∧
      ∀ items, tokens "\tüber.\u2003type\n::r#Item " items = .ok (allowances ++
        ([⟨false, "über"⟩, ⟨true, "type"⟩, ⟨true, "Item"⟩].flatMap
          (fun i => [word "pub", word "mod", .ident i, .opening .brace]) ++ items ++
            List.replicate 3 (.closing .brace))) := by
  have blank (c : Char) (h : isBlank c = true) : ∀ d ∈ [c], isBlank d = true := by simpa using h
  have foreign : Padded "über" ("\t".toList ++ "über".toList ++ []) :=
    .intro (blank '\t' rfl) (by simp)
  have keyword : Padded "type" ("\u2003".toList ++ "type".toList ++ "\n".toList) :=
    .intro (blank '\u2003' rfl) (blank '\n' rfl)
  have marked : Padded "r#Item" ([] ++ "r#Item".toList ++ " ".toList) :=
    .intro (by simp) (blank ' ' rfl)
  have names : Joined ["über", "type", "r#Item"] "\tüber.\u2003type\n::r#Item ".toList :=
    .point foreign (.colons keyword (.last marked))
  have spelled : List.Forall₂ Ident.Spells ["über", "type", "r#Item"]
      [⟨false, "über"⟩, ⟨true, "type"⟩, ⟨true, "Item"⟩] := by
    have text (c : Char) (rest : String) (first : Unicode.isIdentStart c = true)
        (others : rest.toList.all Unicode.isIdentContinue = true) :
        Code.NameText (c :: rest.toList) := .intro first (List.all_eq_true.mp others)
    have foreign : Code.NameText "über".toList := text 'ü' "ber" (by decide +kernel) rfl
    have keyword : Code.NameText "type".toList := text 't' "ype" rfl rfl
    have item : Code.NameText "Item".toList := text 'I' "tem" rfl rfl
    exact .cons (.identifier (i := ⟨false, "über"⟩) ⟨foreign, nofun⟩ rfl)
      (.cons (.keyword ⟨keyword, fun _ => rfl⟩ rfl)
        (.cons (.identifier (i := ⟨true, "Item"⟩) ⟨item, fun _ => rfl⟩ rfl) .nil))
  exact ⟨names, spelled, tokens_outcome.1 _ _ _ names spelled⟩

/-- The last part has a colon left over, and it is refused before the keyword in front of it. -/
example : tokens "self.:::A.b" [] = .error (.invalidName ":A") := by
  rfl

end Outcome

end TypedDecl.Namespace
