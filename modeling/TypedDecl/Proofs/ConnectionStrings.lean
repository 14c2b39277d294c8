import Mathlib.Data.List.DropRight
import TypedDecl.Proofs.LetterCase
import TypedDecl.Source

namespace TypedDecl

namespace Unicode

/-- A text with white space around it, and the text that is left without. -/
structure Trimmed (cs text : List Char) : Prop where
  padded : ∃ before after, cs = before ++ (text ++ after) ∧
    (∀ c ∈ before, isBlank c = true) ∧ ∀ c ∈ after, isBlank c = true
  begins : ∀ some_char : text ≠ [], isBlank (text.head some_char) = false
  ends : ∀ some_char : text ≠ [], isBlank (text.getLast some_char) = false

variable {cs text : List Char}

theorem trimChars_eq (cs : List Char) :
    trimChars cs = (cs.dropWhile isBlank).rdropWhile isBlank := rfl

theorem trimmed_trimChars (cs : List Char) : Trimmed cs (trimChars cs) := by
  let front := cs.dropWhile isBlank
  have kept : trimChars cs <+: front := List.rdropWhile_prefix isBlank front
  refine ⟨⟨cs.takeWhile isBlank, front.rtakeWhile isBlank, ?_, ?_, ?_⟩, ?_, ?_⟩
  · rw [trimChars_eq, List.rdropWhile_append_rtakeWhile, List.takeWhile_append_dropWhile]
  · intro c mem
    exact List.mem_takeWhile_imp mem
  · intro c mem
    exact List.mem_rtakeWhile_imp mem
  · intro some_char
    rw [kept.head some_char]
    exact List.head_dropWhile_not isBlank _
  · intro some_char
    exact Bool.eq_false_iff.mpr (List.rdropWhile_last_not isBlank front some_char)

theorem Trimmed.trimChars_eq (h : Trimmed cs text) : trimChars cs = text := by
  obtain ⟨⟨before, after, rfl, blank_before, blank_after⟩, begins, ends⟩ := h
  have last : (text ++ after).rdropWhile isBlank = text := by
    have backwards : ∀ c ∈ after.reverse, isBlank c = true := by simpa using blank_after
    rw [List.rdropWhile, List.reverse_append, List.dropWhile_append_of_pos backwards]
    exact List.rdropWhile_eq_self_iff.mpr fun some_char => Bool.eq_false_iff.mp (ends some_char)
  rw [Unicode.trimChars_eq, List.dropWhile_append_of_pos blank_before]
  cases text with
  | nil => rw [List.nil_append, List.dropWhile_eq_nil_iff.mpr blank_after, List.rdropWhile_nil]
  | cons c text =>
    have ink : isBlank c = false := begins (List.cons_ne_nil c text)
    rw [List.cons_append, List.dropWhile_cons_of_neg (Bool.eq_false_iff.mp ink)]
    exact last

theorem trimChars_eq_iff : trimChars cs = text ↔ Trimmed cs text := by
  constructor
  · rintro rfl
    exact trimmed_trimChars cs
  · exact Trimmed.trimChars_eq

end Unicode

open Text (SameUpToCase foldCase_eq_iff)
open Unicode (Trimmed trimChars trimChars_eq_iff)

/-- What stands between two semicolons of a connection string. -/
inductive ConnectionPart
  | plain (text : String) (unpaired : '=' ∉ text.toList) (uncut : ';' ∉ text.toList)
  /-- The key ends at the first equals sign; the value may have others. -/
  | pair (key value : String) (unpaired : '=' ∉ key.toList) (uncut : ';' ∉ key.toList)
      (uncut_value : ';' ∉ value.toList)

namespace ConnectionPart

def text : ConnectionPart → String
  | plain text .. => text
  | pair key value .. => key ++ "=" ++ value

/-- The part is for the database of this name. -/
inductive Names : ConnectionPart → String → Prop
  | pair {key value word name : String} {unpaired uncut uncut_value}
      (trimmed_key : Trimmed key.toList word.toList)
      (database : SameUpToCase word "database" ∨ SameUpToCase word "initial catalog")
      (trimmed_value : Trimmed value.toList name.toList) (some_name : name ≠ "") :
      Names (.pair key value unpaired uncut uncut_value) name

theorem uncut_text (p : ConnectionPart) : ';' ∉ p.text.toList := by
  cases p with
  | plain text unpaired uncut => exact uncut
  | pair key value unpaired uncut uncut_value => simp [text, uncut, uncut_value]

theorem exists_of_uncut {cs : List Char} (uncut : ';' ∉ cs) :
    ∃ p : ConnectionPart, p.text.toList = cs := by
  by_cases equals : '=' ∈ cs
  · obtain ⟨key, value, rfl, unpaired⟩ := List.eq_append_cons_of_mem equals
    simp only [List.mem_append, List.mem_cons, not_or] at uncut
    refine ⟨pair (.ofList key) (.ofList value) ?_ ?_ ?_, ?_⟩
    · rwa [String.toList_ofList]
    · rw [String.toList_ofList]
      exact uncut.1
    · rw [String.toList_ofList]
      exact uncut.2.2
    · simp [text]
  · refine ⟨plain (.ofList cs) ?_ ?_, String.toList_ofList⟩
    · rwa [String.toList_ofList]
    · rwa [String.toList_ofList]

end ConnectionPart

namespace Target

open ConnectionPart (Names)

theorem splitGo_eq (sep : Char) (acc cs : List Char) :
    splitGo sep acc cs = (cs.splitOn sep).modifyHead (acc.reverse ++ ·) := by
  induction cs generalizing acc with
  | nil => simp [splitGo]
  | cons c cs ih =>
    rw [splitGo, List.splitOn_cons_eq_if_modifyHead]
    by_cases cut : c = sep
    · rw [if_pos cut, if_pos (beq_iff_eq.mpr cut), ih, List.modifyHead_cons, List.append_nil]
      exact congrArg _ (congrFun List.modifyHead_id _)
    · simp [cut, ih, Function.comp_def]

section Parts

variable {key value : List Char} {p : ConnectionPart} {name : String}

theorem unpaired_all {text : List Char} (unpaired : '=' ∉ text) :
    ∀ c ∈ text, decide (c ≠ '=') = true := by
  intro c mem
  apply decide_eq_true
  rintro rfl
  exact unpaired mem

theorem databaseOfPart?_plain {text : List Char} (unpaired : '=' ∉ text) :
    databaseOfPart? text = none := by
  rw [databaseOfPart?, List.dropWhile_eq_nil_iff.mpr (unpaired_all unpaired)]

theorem databaseOfPart?_pair (unpaired : '=' ∉ key) :
    databaseOfPart? (key ++ '=' :: value) =
      if databaseKeys.contains (foldCase (String.ofList (trimChars key))) &&
          !(trimChars value).isEmpty then
        some (String.ofList (trimChars value))
      else none := by
  have all := unpaired_all unpaired
  rw [databaseOfPart?, List.dropWhile_append_of_pos all, List.takeWhile_append_of_pos all]
  simp

theorem mem_databaseKeys {word : String} :
    foldCase word ∈ databaseKeys ↔
      SameUpToCase word "database" ∨ SameUpToCase word "initial catalog" := by
  have folded : databaseKeys = ["database", "initial catalog"].map foldCase := by decide
  rw [folded, ← foldCase_eq_iff, ← foldCase_eq_iff]
  simp

theorem databaseOfPart?_eq_some : databaseOfPart? p.text.toList = some name ↔ p.Names name := by
  cases p with
  | plain text unpaired uncut =>
    rw [ConnectionPart.text, databaseOfPart?_plain unpaired]
    exact ⟨nofun, nofun⟩
  | pair key value unpaired uncut uncut_value =>
    have chars : (ConnectionPart.pair key value unpaired uncut uncut_value).text.toList =
        key.toList ++ '=' :: value.toList := by
      simp [ConnectionPart.text]
    rw [chars, databaseOfPart?_pair unpaired]
    constructor
    · intro named
      split at named
      · rename_i tests
        rw [Bool.and_eq_true, List.contains_iff_mem, mem_databaseKeys] at tests
        cases named
        refine .pair (trimChars_eq_iff.mp ?_) tests.1 (trimChars_eq_iff.mp ?_) ?_
        · rw [String.toList_ofList]
        · rw [String.toList_ofList]
        · simpa using tests.2
      · cases named
    · rintro ⟨trimmed_key, database, trimmed_value, some_name⟩
      rw [trimmed_key.trimChars_eq, trimmed_value.trimChars_eq, String.ofList_toList,
        String.ofList_toList, if_pos]
      rw [Bool.and_eq_true, List.contains_iff_mem, mem_databaseKeys]
      exact ⟨database, by simpa using some_name⟩

end Parts

section Joined

/-- The connection string of these parts. -/
def joined (parts : List ConnectionPart) : String := ";".intercalate (parts.map ConnectionPart.text)

variable {parts : List ConnectionPart}

theorem toList_joined (parts : List ConnectionPart) :
    (joined parts).toList = [';'].intercalate (parts.map (·.text.toList)) := by
  rw [joined, String.toList_intercalate, List.map_map]
  rfl

theorem splitGo_joined (some_part : parts ≠ []) :
    splitGo ';' [] (joined parts).toList = parts.map (·.text.toList) := by
  have cut : (joined parts).toList.splitOn ';' = parts.map (·.text.toList) := by
    rw [toList_joined]
    apply List.splitOn_intercalate ';'
    · rw [List.forall_mem_map]
      intro p _
      exact p.uncut_text
    · simpa using some_part
  rw [splitGo_eq, cut]
  exact congrFun List.modifyHead_id _

theorem databaseName?_joined (parts : List ConnectionPart) :
    (connection (joined parts)).databaseName? =
      parts.findSome? fun p => databaseOfPart? p.text.toList := by
  by_cases some_part : parts = []
  · subst some_part
    rfl
  · rw [databaseName?, splitGo_joined some_part, List.findSome?_map]
    rfl

theorem exists_joined (text : String) : ∃ parts, joined parts = text := by
  have chars (cs : List Char) : ∃ p ps, (joined (p :: ps)).toList = cs := by
    induction cs with
    | nil => exact ⟨.plain "" (by decide) (by decide), [], rfl⟩
    | cons c cs ih =>
      obtain ⟨p, ps, rfl⟩ := ih
      by_cases cut : c = ';'
      · subst cut
        refine ⟨.plain "" (by decide) (by decide), p :: ps, ?_⟩
        simp [toList_joined, ConnectionPart.text]
      · have uncut : ';' ∉ c :: p.text.toList := by
          simp [p.uncut_text, Ne.symm cut]
        obtain ⟨longer, longer_text⟩ := ConnectionPart.exists_of_uncut uncut
        refine ⟨longer, ps, ?_⟩
        cases ps <;> simp [toList_joined, longer_text]
  obtain ⟨p, ps, same⟩ := chars text.toList
  exact ⟨p :: ps, String.toList_injective same⟩

/-- A connection string names the database of its first part that is for one, and none if no part
is. Parts in front that are for none make no difference. Any text is made of parts. -/
theorem databaseName?_first (parts : List ConnectionPart) :
    (∀ name, (connection (joined parts)).databaseName? = some name ↔
      ∃ before p after, parts = before ++ p :: after ∧ p.Names name ∧
        ∀ q ∈ before, ∀ other, ¬ q.Names other) ∧
    ((connection (joined parts)).databaseName? = none ↔ ∀ p ∈ parts, ∀ name, ¬ p.Names name) ∧
    (∀ before : List ConnectionPart, (∀ q ∈ before, ∀ name, ¬ q.Names name) →
      (connection (joined (before ++ parts))).databaseName? =
        (connection (joined parts)).databaseName?) ∧
    ∀ text, ∃ parts, joined parts = text := by
  have silent (p : ConnectionPart) :
      databaseOfPart? p.text.toList = none ↔ ∀ name, ¬ p.Names name := by
    rw [Option.eq_none_iff_forall_ne_some]
    simp only [ne_eq, databaseOfPart?_eq_some]
  refine ⟨?_, ?_, ?_, exists_joined⟩
  · intro name
    rw [databaseName?_joined, List.findSome?_eq_some_iff]
    simp only [databaseOfPart?_eq_some, silent]
  · rw [databaseName?_joined, List.findSome?_eq_none_iff]
    simp only [silent]
  · intro before unnamed
    have none_before : before.findSome? (databaseOfPart? ·.text.toList) = none :=
      List.findSome?_eq_none_iff.mpr fun q mem => (silent q).mpr (unnamed q mem)
    rw [databaseName?_joined, databaseName?_joined, List.findSome?_append, none_before,
      Option.none_or]

/-- A server, a text without a key, a value without a key and a database that is blank. -/
def withoutDatabase : List ConnectionPart :=
  [.pair "Server" "." (by decide) (by decide) (by decide),
    .plain " trusted" (by decide) (by decide),
    .pair "" "x" (by decide) (by decide) (by decide),
    .pair " Database " "\t" (by decide) (by decide) (by decide)]

/-- The database behind such parts is found, with the equals sign in its name. -/
theorem databaseName?_behind_withoutDatabase :
    let parts : List ConnectionPart :=
      [.pair " INITIAL catalog" " Shop=1 " (by decide) (by decide) (by decide),
        .pair "Database" "Blog" (by decide) (by decide) (by decide)]
    (∀ q ∈ withoutDatabase, ∀ name, ¬ q.Names name) ∧
      (connection (joined (withoutDatabase ++ parts))).databaseName? =
        (connection (joined parts)).databaseName? ∧
      (connection (joined parts)).databaseName? = some "Shop=1" := by
  intro parts
  have unnamed : ∀ q ∈ withoutDatabase, ∀ name, ¬ q.Names name := by
    intro q mem name named
    have found := databaseOfPart?_eq_some.mpr named
    have none_found : ∀ q ∈ withoutDatabase, databaseOfPart? q.text.toList = none := by decide
    rw [none_found q mem] at found
    cases found
  exact ⟨unnamed, (databaseName?_first parts).2.2.1 withoutDatabase unnamed, by decide⟩

end Joined

end Target

end TypedDecl
