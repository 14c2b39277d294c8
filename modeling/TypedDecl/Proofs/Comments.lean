import TypedDecl.Code.Attribute.Layout
import TypedDecl.Header
import TypedDecl.Proofs.Lexemes

namespace TypedDecl.Code

open Lexer

/-- No comment begins or ends within the text. -/
def Uncommented (cs : List Char) : Prop := ¬['/', '*'] <:+: cs ∧ ¬['*', '/'] <:+: cs

instance : DecidablePred Uncommented := fun cs =>
  inferInstanceAs (Decidable (¬['/', '*'] <:+: cs ∧ ¬['*', '/'] <:+: cs))

/-- Not the two characters of a mark. -/
def unmarking (a b : Char) : Prop := ¬(a = '/' ∧ b = '*') ∧ ¬(a = '*' ∧ b = '/')

theorem uncommented_iff {cs : List Char} : Uncommented cs ↔ cs.IsChain unmarking := by
  rw [List.isChain_iff_forall_rel_of_append_cons_cons]
  constructor
  · rintro ⟨no_start, no_stop⟩ a b before behind rfl
    refine ⟨?_, ?_⟩
    · rintro ⟨rfl, rfl⟩
      exact no_start ⟨before, behind, by simp⟩
    · rintro ⟨rfl, rfl⟩
      exact no_stop ⟨before, behind, by simp⟩
  · intro h
    refine ⟨?_, ?_⟩
    · rintro ⟨before, behind, rfl⟩
      exact (@h '/' '*' before behind (by simp)).1 ⟨rfl, rfl⟩
    · rintro ⟨before, behind, rfl⟩
      exact (@h '*' '/' before behind (by simp)).2 ⟨rfl, rfl⟩

section Blocks

/-- What is written between the marks of a block comment is read up to the closing mark, with as
many marks open as it has closed. -/
theorem blockComment?_balanced {depth : Nat} {cs : List Char}
    (h : balancesComments depth cs = true) (last : cs.getLast? ≠ some '/') (rest : List Char) :
    blockComment? (depth + 1) (cs ++ '*' :: '/' :: rest) = some (cs, rest) := by
  fun_induction balancesComments depth cs with
  | case1 depth =>
    obtain rfl : depth = 0 := by simpa using h
    rfl
  | case2 depth cs ih =>
    have tail : cs.getLast? ≠ some '/' := by
      cases cs with
      | nil => simp
      | cons c cs => simpa using last
    simp [blockComment?, ih h tail]
  | case3 depth cs ih =>
    simp only [Bool.and_eq_true, decide_eq_true_eq] at h
    obtain ⟨depth, rfl⟩ := Nat.exists_eq_succ_of_ne_zero h.1
    have tail : cs.getLast? ≠ some '/' := by
      cases cs with
      | nil => simp at last
      | cons c cs => simpa using last
    have inner : blockComment? (depth + 1) (cs ++ '*' :: '/' :: rest) = some (cs, rest) :=
      ih h.2 tail
    simp [blockComment?, inner]
  | case4 depth c cs no_start no_stop ih =>
    have tail : cs.getLast? ≠ some '/' := by
      cases cs with
      | nil => simp
      | cons d cs => simpa using last
    have start : ∀ ds, c :: (cs ++ '*' :: '/' :: rest) ≠ '/' :: '*' :: ds := by
      intro ds heq
      cases cs with
      | nil => simp_all
      | cons d cs => simp_all
    have stop : ∀ ds, c :: (cs ++ '*' :: '/' :: rest) ≠ '*' :: '/' :: ds := by
      intro ds heq
      cases cs with
      | nil => simp_all
      | cons d cs => simp_all
    rw [List.cons_append, blockComment?, ih h tail]
    · rfl
    · simpa using start
    · simpa using stop

theorem balancesComments_of_uncommented {cs : List Char} (h : Uncommented cs) :
    balancesComments 0 cs = true := by
  rw [uncommented_iff] at h
  generalize hd : 0 = depth
  fun_induction balancesComments depth cs with
  | case1 depth => simp [← hd]
  | case2 depth cs ih => exact absurd (List.isChain_cons_cons.mp h).1.1 (by simp)
  | case3 depth cs ih => exact absurd (List.isChain_cons_cons.mp h).1.2 (by simp)
  | case4 depth c cs no_start no_stop ih => exact ih h.tail hd

end Blocks

/-- What a line comment leaves is the end of its line. -/
theorem lineComment_rest {cs : List Char} (feed : '\n' ∉ cs) (rest : List Char) :
    (lineComment (cs ++ '\n' :: rest)).2 = '\n' :: rest := by
  induction cs with
  | nil => rfl
  | cons c cs ih =>
    rw [List.mem_cons, not_or] at feed
    have other : c ≠ '\n' := Ne.symm feed.1
    by_cases ends : c = '\r' ∧ cs = []
    · obtain ⟨rfl, rfl⟩ := ends
      rfl
    · rw [List.cons_append, lineComment]
      · exact ih feed.2
      · simp [other]
      · rintro ds rfl heq
        cases cs with
        | nil => exact ends ⟨rfl, rfl⟩
        | cons d cs => simp_all

/-- A comment is read in one step. -/
theorem Lexer.Lexes.comment {rest cs : List Char} {ts : List Token} (lead : cs.head? = some '/')
    (h : comment? (cs ++ rest) = some (ts, rest)) : Lexes rest cs ts := by
  obtain ⟨tail, rfl⟩ := List.head?_eq_some_iff.mp lead
  refine .step (by simp) fun fuel stack => ?_
  rw [List.cons_append] at h ⊢
  have space : isSpace '/' = false := rfl
  simp only [tokens, space, h, Bool.false_eq_true, if_false]

section Remarks

/-- White space, or a comment that is no documentation. The end of its line belongs to a comment. -/
inductive Remark : List Char → Prop
  | space {c : Char} (h : isSpace c = true) : Remark [c]
  | line {text : List Char} (feed : '\n' ∉ text) (slash : text.head? ≠ some '/')
      (mark : text.head? ≠ some '!') : Remark ('/' :: '/' :: (text ++ ['\n']))
  | block {text : List Char} (h : Uncommented text) (last : text.getLast? ≠ some '/')
      (star : text.head? ≠ some '*') (mark : text.head? ≠ some '!') :
      Remark ('/' :: '*' :: (text ++ ['*', '/']))

/-- One remark after the other. -/
inductive Remarks : List Char → Prop
  | nil : Remarks []
  | cons {cs ds : List Char} (first : Remark cs) (others : Remarks ds) : Remarks (cs ++ ds)

variable {rest cs ds : List Char}

theorem Remark.remarks (h : Remark cs) : Remarks cs := by
  have whole := Remarks.cons h .nil
  rwa [List.append_nil] at whole

theorem Remarks.append (h : Remarks cs) (others : Remarks ds) : Remarks (cs ++ ds) := by
  induction h with
  | nil => exact others
  | cons first _ ih =>
    rw [List.append_assoc]
    exact .cons first ih

/-- Nothing is read of a remark, whatever follows it. -/
theorem Remark.lexes (h : Remark cs) : Lexes rest cs [] := by
  cases h with
  | space h => exact .space h
  | @line text feed slash mark =>
    have ended := lineComment_rest feed rest
    have note : Lexes ('\n' :: rest) ('/' :: '/' :: text) [] := by
      refine .comment rfl ?_
      cases text with
      | nil => rfl
      | cons c text =>
        have plain : c ≠ '/' ∧ c ≠ '!' := by simpa using And.intro slash mark
        simpa [comment?, plain] using ended
    have feed : Lexes rest ['\n'] [] := .space rfl
    exact note.append feed
  | @block text h last star mark =>
    have block := blockComment?_balanced (balancesComments_of_uncommented h) last rest
    refine .comment rfl ?_
    cases text with
    | nil => rfl
    | cons c text =>
      have plain : c ≠ '*' ∧ c ≠ '!' := by simpa using And.intro star mark
      simp only [Nat.zero_add, List.cons_append] at block
      simp [comment?, plain, block]

theorem Remarks.lexes (h : Remarks cs) : Lexes rest cs [] := by
  induction h with
  | nil => exact .nil
  | cons first _ ih => exact first.lexes.append ih

end Remarks

end TypedDecl.Code

namespace TypedDecl

open Code (Remark Remarks Uncommented uncommented_iff unmarking)

namespace Unicode

theorem not_mem_linesGo {acc cs : List Char} (h : '\n' ∉ acc) :
    ∀ line ∈ linesGo acc cs, '\n' ∉ line := by
  fun_induction linesGo acc cs with
  | case1 => simp
  | case2 acc some_char => simpa using h
  | case3 acc cs ih =>
    rw [List.forall_mem_cons]
    refine ⟨fun mem => ?_, ih (by simp)⟩
    have sub : dropReturn acc.reverse ⊆ acc.reverse := by
      rw [dropReturn]
      split
      · exact List.dropLast_subset _
      · exact List.Subset.refl _
    exact h (by simpa using sub mem)
  | case4 acc c cs other ih => exact ih (by simp [h, Ne.symm other])

end Unicode

namespace Moment

/-- The characters of a date and a time of day. -/
def written (c : Char) : Bool := c.isDigit || ['+', '-', ' ', ':'].contains c

theorem written_padded (width n : Nat) : ∀ c ∈ (padded width n).toList, written c = true := by
  intro c hc
  rw [padded, String.toList_ofList, List.mem_append] at hc
  rw [written, Bool.or_eq_true]
  rcases hc with zero | digit
  · rw [List.eq_of_mem_replicate zero]
    exact .inl rfl
  · exact .inl (Nat.isDigit_of_mem_toDigits (by decide) (Nat.le_refl 10) digit)

theorem written_text (m : Moment) : ∀ c ∈ m.text.toList, written c = true := by
  have sign : ∀ c ∈ (if m.year < 0 then "-" else if 9999 < m.year then "+" else "").toList,
      written c = true := by
    split_ifs <;> simp [written]
  have dash : ∀ c ∈ "-".toList, written c = true := by simp [written]
  have blank : ∀ c ∈ " ".toList, written c = true := by simp [written]
  have colon : ∀ c ∈ ":".toList, written c = true := by simp [written]
  simp only [text, yearText, String.toList_append, List.forall_mem_append]
  exact ⟨⟨⟨⟨⟨⟨⟨⟨⟨⟨⟨sign, written_padded _ _⟩, dash⟩, written_padded _ _⟩, dash⟩,
    written_padded _ _⟩, blank⟩, written_padded _ _⟩, colon⟩, written_padded _ _⟩, colon⟩,
    written_padded _ _⟩

end Moment

namespace Header

theorem remarks_feed : Remarks ['\n'] := (Remark.space rfl).remarks

theorem remarks_commentLine {line : String} (h : '\n' ∉ line.toList) :
    Remarks (commentLine line).toList := by
  rw [commentLine]
  split
  · have empty : Remark ('/' :: '/' :: ([] ++ ['\n'])) := .line (by simp) (by simp) (by simp)
    exact empty.remarks
  · have chars : ("// " ++ line ++ "\n").toList = '/' :: '/' :: (' ' :: line.toList ++ ['\n']) := by
      simp
    rw [chars]
    exact (Remark.line (by simpa using h) (by simp) (by simp)).remarks

theorem remarks_license (license : String) : Remarks (licenseText license).toList := by
  have each : ∀ lines : List String, (∀ l ∈ lines, '\n' ∉ l.toList) →
      Remarks (String.join (lines.map commentLine)).toList := by
    intro lines
    induction lines with
    | nil => exact fun _ => .nil
    | cons l lines ih =>
      intro h
      rw [List.forall_mem_cons] at h
      rw [List.map_cons, String.join_cons, String.toList_append]
      exact (remarks_commentLine h.1).append (ih h.2)
  rw [licenseText]
  split
  · exact .nil
  · have lines : ∀ l ∈ Unicode.lines license, '\n' ∉ l.toList := by
      intro l hl
      obtain ⟨cs, mem, rfl⟩ := List.mem_map.mp hl
      rw [String.toList_ofList]
      exact Unicode.not_mem_linesGo (by simp) cs mem
    rw [String.toList_append]
    exact (each _ lines).append remarks_feed

/-- A character that has no part in a mark. -/
def harmless (c : Char) : Bool := c ≠ '/' && c ≠ '*'

theorem harmless_iff {c : Char} : harmless c = true ↔ c ≠ '/' ∧ c ≠ '*' := by simp [harmless]

/-- A text without such characters between two others. -/
theorem uncommented_join {a b c : List Char} (ha : Uncommented a) (hb : b.all harmless = true)
    (hc : Uncommented c) (some_char : b ≠ []) : Uncommented (a ++ b ++ c) := by
  rw [List.all_eq_true] at hb
  have harm (x : Char) (hx : x ∈ b) : x ≠ '/' ∧ x ≠ '*' := harmless_iff.mp (hb x hx)
  have inner : b.IsChain unmarking := List.isChain_iff_forall_rel_of_append_cons_cons.mpr <| by
    rintro x y before behind rfl
    have other := harm x (by simp)
    simp [unmarking, other]
  rw [uncommented_iff] at ha hc ⊢
  refine List.isChain_append.mpr ⟨List.isChain_append.mpr ⟨ha, inner, ?_⟩, hc, ?_⟩
  · intro y hy z hz
    have other := harm z (List.mem_of_mem_head? hz)
    simp [unmarking, other]
  · intro y hy z hz
    rw [List.getLast?_append_of_ne_nil _ some_char] at hy
    have other := harm y (List.mem_of_getLast? hy)
    simp [unmarking, other]

theorem uncommented_nil : Uncommented [] := uncommented_iff.mpr .nil

theorem harmless_moment (m : Moment) : (m.text.toList ++ ['\n']).all harmless = true := by
  rw [List.all_eq_true, List.forall_mem_append]
  refine ⟨fun c hc => harmless_iff.mpr ⟨?_, ?_⟩, by simp [harmless]⟩
  all_goals
    have written := m.written_text c hc
    intro other
    rw [other] at written
    cases written

/-- What stands between the marks of the comment that tells what generated a file. -/
def noticeText (p : Provenance) : List Char :=
  "\nThis file was generated by ".toList ++ (p.generator.toList ++ " version ".toList ++
    (p.version.toList ++ ("\nAt ".toList ++ (p.moment.text.toList ++ ['\n']))))

theorem toList_notice (p : Provenance) :
    p.notice.toList = '/' :: '*' :: (noticeText p ++ ['*', '/']) ++ ['\n'] := by
  have front : "/*\nThis file was generated by ".toList =
      '/' :: '*' :: "\nThis file was generated by ".toList := by decide +kernel
  have back : "\n*/\n".toList = ['\n', '*', '/', '\n'] := by decide +kernel
  unfold Provenance.notice noticeText
  simp only [String.toList_append, front, back, List.append_assoc, List.cons_append,
    List.nil_append]

theorem uncommented_notice {p : Provenance} (generator : Uncommented p.generator.toList)
    (version : Uncommented p.version.toList) : Uncommented (noticeText p) := by
  have behind : ("\nAt ".toList ++ (p.moment.text.toList ++ ['\n'])).all harmless = true := by
    rw [List.all_append, harmless_moment]
    rfl
  have ending := uncommented_join version behind uncommented_nil (by simp)
  have names := uncommented_join generator (b := " version ".toList) rfl ending
    (List.cons_ne_nil _ _)
  have whole := uncommented_join uncommented_nil (b := "\nThis file was generated by ".toList) rfl
    names (List.cons_ne_nil _ _)
  unfold noticeText
  simpa only [List.nil_append, List.append_nil, List.append_assoc] using whole

/-- The comment that tells what generated a file is one as long as no mark is in it. -/
theorem remarks_notice {p : Provenance} (generator : Uncommented p.generator.toList)
    (version : Uncommented p.version.toList) : Remarks p.notice.toList := by
  have last : (noticeText p).getLast? = some '\n' := by
    unfold noticeText
    simp only [← List.append_assoc, List.getLast?_concat]
  have lead : (noticeText p).head? = some '\n' := rfl
  have note : Remark ('/' :: '*' :: (noticeText p ++ ['*', '/'])) :=
    .block (uncommented_notice generator version) (by simp [last]) (by simp [lead]) (by simp [lead])
  rw [toList_notice]
  exact .cons note remarks_feed

/-- All that stands before generated code are remarks, whatever the licence. -/
theorem remarks_text (license : Option String) {p : Provenance}
    (generator : Uncommented p.generator.toList) (version : Uncommented p.version.toList) :
    Remarks (text license p).toList := by
  have notice : Remarks p.notice.toList := remarks_notice generator version
  cases license with
  | none => simpa [text] using notice
  | some license =>
    have chars : (text (some license) p).toList =
        (licenseText license).toList ++ p.notice.toList := by simp [text]
    rw [chars]
    exact (remarks_license license).append notice

end Header

end TypedDecl
