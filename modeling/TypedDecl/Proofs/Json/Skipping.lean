import TypedDecl.Json.Skip
import TypedDecl.Proofs.Json.Strings

namespace TypedDecl.Json

open Cursor (Passes passes_cons passes_append passes_nil skipBlanks_cons isBlank isBlank_iff)

variable {c c' : Cursor} {ch : Char} {t u b ds : List Char} {more fuel : Nat}
  {stack : List Bracket} {k : Bracket}

section Numbers

namespace Cursor

/-- No number goes on here. -/
def Bounded (c : Cursor) : Prop :=
  ∀ ch, c.peek? = some ch → ch.isDigit = false ∧ ch ∉ ['.', 'e', 'E']

theorem startsDigit_of_peek (first : c.peek? = some ch) : c.startsDigit = ch.isDigit := by
  rw [startsDigit, ← peek?, first, Option.any_some]

theorem Bounded.startsDigit (bounded : c.Bounded) : c.startsDigit = false := by
  cases first : c.peek? with
  | none => rw [Cursor.startsDigit, ← peek?, first, Option.any_none]
  | some ch => rw [startsDigit_of_peek first, (bounded ch first).1]

theorem skipDigits_eq (all : ∀ d ∈ ds, d.isDigit = true) (p : Passes c ds c')
    (stop : c'.startsDigit = false) : c.skipDigits = c' := by
  have none : c'.rest.takeWhile Char.isDigit = [] := by
    cases h : c'.rest with
    | nil => rfl
    | cons ch r =>
      rw [startsDigit, h, List.head?_cons, Option.any_some] at stop
      rw [List.takeWhile_cons, if_neg (by simp [stop])]
  rw [skipDigits, p.rest, List.takeWhile_append_of_pos all, none, List.append_nil, p.place]

end Cursor

open Cursor (Bounded startsDigit_of_peek skipDigits_eq)

theorem Digits.all (h : Digits ds) : ∀ d ∈ ds, d.isDigit = true := by
  induction h with
  | one digit => simpa using digit
  | more digit _ ih => simpa using ⟨digit, ih⟩

theorem Digits.head (h : Digits ds) : ∃ d r, ds = d :: r ∧ d.isDigit = true := by
  cases h with
  | one digit => exact ⟨_, _, rfl, digit⟩
  | more digit _ => exact ⟨_, _, rfl, digit⟩

/-- Digits are next, and behind them is the place. -/
theorem Digits.passes (h : Digits ds) (p : Passes c ds c') (stop : c'.startsDigit = false) :
    c.startsDigit = true ∧ c.skipDigits = c' := by
  refine ⟨?_, skipDigits_eq h.all p stop⟩
  obtain ⟨d, r, rfl, digit⟩ := h.head
  rw [startsDigit_of_peek (passes_cons.mp p).1, digit]

theorem skipExponent_power {e : Char} {sign : List Char} (signed : sign ∈ [[], ['+'], ['-']])
    (digits : Digits ds) (p : Passes c (e :: (sign ++ ds)) c') (stop : c'.startsDigit = false) :
    skipExponent c = .ok c' := by
  obtain ⟨-, p⟩ := passes_cons.mp p
  simp only [List.mem_cons, List.not_mem_nil, or_false] at signed
  rcases signed with rfl | rfl | rfl
  · obtain ⟨starts, place⟩ := digits.passes p stop
    obtain ⟨d, r, rfl, digit⟩ := digits.head
    have noSign : c.next.peek? ≠ some '+' ∧ c.next.peek? ≠ some '-' := by
      rw [(passes_cons.mp p).1]
      constructor <;> rintro ⟨⟩ <;> cases digit
    simp [skipExponent, noSign, starts, place]
  all_goals
    obtain ⟨first, p⟩ := passes_cons.mp p
    obtain ⟨starts, place⟩ := digits.passes p stop
    simp [skipExponent, first, starts, place]

/-- Past what stands behind the whole part of a number. -/
def afterWhole (c : Cursor) : Except Failure Cursor :=
  match c.peek? with
  | some '.' =>
    let c := c.next
    if !c.startsDigit then c.failAhead .invalidNumber
    else
      let c := c.skipDigits
      if c.peek? = some 'e' || c.peek? = some 'E' then skipExponent c else pure c
  | some 'e' | some 'E' => skipExponent c
  | _ => pure c

theorem skipNumber_zero (first : c.peek? = some '0') (alone : c.next.startsDigit = false) :
    skipNumber c = afterWhole c.next := by
  rw [skipNumber, first]
  simp only [alone]
  rfl

theorem skipNumber_digits (first : c.peek? ≠ some '0') (starts : c.startsDigit = true) :
    skipNumber c = afterWhole c.skipDigits := by
  rw [skipNumber]
  split
  · exact absurd ‹_› first
  · rw [if_pos starts]
    rfl

theorem Power.stop (h : Power t) (p : Passes c t c') (bounded : c'.Bounded) :
    c.startsDigit = false := by
  cases h with
  | none =>
    rw [passes_nil.mp p]
    exact bounded.startsDigit
  | some letter signed digits =>
    rw [startsDigit_of_peek (passes_cons.mp p).1]
    rcases letter with rfl | rfl <;> rfl

theorem afterWhole_power (h : Power t) (p : Passes c t c') (bounded : c'.Bounded) :
    afterWhole c = .ok c' := by
  cases h with
  | none =>
    obtain rfl := passes_nil.mp p
    unfold afterWhole
    split
    · exact absurd (bounded _ ‹_›).2 (by decide)
    · exact absurd (bounded _ ‹_›).2 (by decide)
    · exact absurd (bounded _ ‹_›).2 (by decide)
    · rfl
  | some letter signed digits =>
    have first := (passes_cons.mp p).1
    rcases letter with rfl | rfl <;> simp only [afterWhole, first] <;>
      exact skipExponent_power signed digits p bounded.startsDigit

theorem afterWhole_places {power : List Char} (h : Places t) (h' : Power power)
    (p : Passes c (t ++ power) c') (bounded : c'.Bounded) : afterWhole c = .ok c' := by
  cases h with
  | none => exact afterWhole_power h' p bounded
  | some digits =>
    obtain ⟨point, p⟩ := passes_cons.mp p
    obtain ⟨mid, front, back⟩ := passes_append.mp p
    obtain ⟨starts, place⟩ := digits.passes front (h'.stop back bounded)
    simp only [afterWhole, point, starts, place, Bool.not_true, Bool.false_eq_true, if_false]
    cases h' with
    | none =>
      obtain rfl := passes_nil.mp back
      rw [if_neg]
      · rfl
      · rw [Bool.or_eq_true, decide_eq_true_iff, decide_eq_true_iff]
        rintro (first | first)
        · exact absurd (bounded _ first).2 (by decide)
        · exact absurd (bounded _ first).2 (by decide)
    | some letter signed digits' =>
      have first := (passes_cons.mp back).1
      rw [if_pos (by rcases letter with rfl | rfl <;> simp [first])]
      exact skipExponent_power signed digits' back bounded.startsDigit

theorem Places.stop {power : List Char} (h : Places t) (h' : Power power)
    (p : Passes c (t ++ power) c') (bounded : c'.Bounded) : c.startsDigit = false := by
  cases h with
  | none => exact h'.stop p bounded
  | some digits => rw [startsDigit_of_peek (passes_cons.mp p).1]; rfl

theorem skipNumber_unsigned (h : Unsigned t) (p : Passes c t c') (bounded : c'.Bounded) :
    skipNumber c = .ok c' := by
  obtain ⟨whole, places, power⟩ := h
  obtain ⟨mid, front, back⟩ := passes_append.mp p
  have stop := places.stop power back bounded
  cases whole with
  | zero =>
    obtain ⟨first, place⟩ := passes_cons.mp front
    obtain rfl := passes_nil.mp place
    rw [skipNumber_zero first stop]
    exact afterWhole_places places power back bounded
  | digits nonzero all =>
    obtain ⟨starts, place⟩ := all.passes front stop
    have first : c.peek? ≠ some '0' := by
      rw [(passes_cons.mp front).1]
      exact fun same => nonzero (Option.some.inj same)
    rw [skipNumber_digits first starts, place]
    exact afterWhole_places places power back bounded

theorem Unsigned.head (h : Unsigned t) : ∃ d r, t = d :: r ∧ d.isDigit = true := by
  obtain ⟨whole, -, -⟩ := h
  cases whole with
  | zero => exact ⟨_, _, rfl, rfl⟩
  | digits _ all =>
    obtain ⟨d, r, same, digit⟩ := all.head
    exact ⟨_, _, rfl, List.cons.inj same |>.1 ▸ digit⟩

end Numbers

section Heads

open Cursor (Bounded)

/-- An item begins so that neither a blank nor a sign between items can be meant. -/
def Begins (t : List Char) : Prop :=
  ∃ ch r, t = ch :: r ∧ isBlank ch = false ∧ ch ∉ [',', ']', '\x7d']

theorem begins_of_isDigit (digit : ch.isDigit = true) : Begins (ch :: t) := by
  refine ⟨ch, t, rfl, ?_, ?_⟩
  · rw [← Bool.not_eq_true, isBlank_iff]
    rintro (rfl | rfl | rfl | rfl) <;> cases digit
  · intro mem
    simp only [List.mem_cons, List.not_mem_nil, or_false] at mem
    rcases mem with rfl | rfl | rfl <;> cases digit

theorem Unsigned.peek_ne {l : Char} (h : Unsigned t) (p : Passes c t c')
    (sign : l.isDigit = false) : c.peek? ≠ some l := by
  obtain ⟨d, r, rfl, digit⟩ := h.head
  rw [(passes_cons.mp p).1]
  rintro ⟨⟩
  rw [digit] at sign
  cases sign

theorem Unsigned.begins (h : Unsigned t) : Begins t := by
  obtain ⟨d, r, rfl, digit⟩ := h.head
  exact begins_of_isDigit digit

theorem Value.Written.begins {v : Value} (h : v.Written t) : Begins t := by
  cases h with
  | unsigned digits => exact digits.begins
  | _ => exact ⟨_, _, rfl, rfl, by decide⟩

theorem Begins.passes (h : Begins t) (blank : Blank b) (p : Passes c (b ++ (t ++ u)) c') :
    ∃ ch, c.skipBlanks.peek? = some ch ∧ ch ∉ [',', ']', '\x7d'] ∧
      Passes c.skipBlanks (t ++ u) c' := by
  obtain ⟨ch, r, rfl, solid, other⟩ := h
  obtain ⟨first, p⟩ := skipBlanks_cons blank p solid
  exact ⟨ch, first, other, passes_cons.mpr ⟨first, p⟩⟩

theorem Begins.passes_alone (h : Begins t) (blank : Blank b) (p : Passes c (b ++ t) c') :
    Passes c.skipBlanks t c' := by
  rw [← List.append_nil t] at p
  obtain ⟨-, -, -, p⟩ := h.passes blank p
  rwa [List.append_nil] at p

section Items

variable {x : List Char} {xs : List (List Char)}

theorem Items.passes (h : Items (x :: xs) t) (begins : Begins x) (p : Passes c (t ++ u) c') :
    ∃ ch mid r, c.skipBlanks.peek? = some ch ∧ ch ∉ [',', ']', '\x7d'] ∧
      Passes c.skipBlanks x mid ∧ Others xs r ∧ Passes mid (r ++ u) c' := by
  cases h with
  | first blank rest =>
    simp only [List.append_assoc] at p
    obtain ⟨ch, first, other, p⟩ := begins.passes blank p
    obtain ⟨mid, front, back⟩ := passes_append.mp p
    exact ⟨ch, mid, _, first, other, front, rest, back⟩

theorem Others.passes (h : Others (x :: xs) t) (begins : Begins x) (p : Passes c (t ++ u) c') :
    c.skipBlanks.peek? = some ',' ∧
      ∃ ch mid r, c.skipBlanks.next.skipBlanks.peek? = some ch ∧ ch ∉ [',', ']', '\x7d'] ∧
        Passes c.skipBlanks.next.skipBlanks x mid ∧ Others xs r ∧ Passes mid (r ++ u) c' := by
  cases h with
  | next before behind rest =>
    simp only [List.cons_append, List.append_assoc] at p
    obtain ⟨comma, p⟩ := skipBlanks_cons before p rfl
    obtain ⟨ch, first, other, p⟩ := begins.passes behind p
    obtain ⟨mid, front, back⟩ := passes_append.mp p
    exact ⟨comma, ch, mid, _, first, other, front, rest, back⟩

end Items

theorem Member.begins (m : Member) : Begins m.written := ⟨_, _, rfl, rfl, by decide⟩

theorem skipWord_passes (p : Passes c t c') : skipWord t c = .ok c' := by
  induction t generalizing c with
  | nil => rw [skipWord, passes_nil.mp p]
  | cons l t ih =>
    obtain ⟨first, p⟩ := passes_cons.mp p
    simp only [skipWord, first, if_true]
    exact ih p

theorem skipHead_digit (first : c.peek? = some ch) (digit : ch.isDigit = true) :
    skipHead more c = (skipNumber c).map (none, ·) := by
  rw [skipHead, first]
  split <;> rename_i same <;> cases same
  all_goals first | cases digit | skip
  rw [if_pos digit]

theorem skipHead_word {l : Char} (known : (l, t) ∈ [('n', ['u', 'l', 'l']), ('t', ['r', 'u', 'e']),
    ('f', ['a', 'l', 's', 'e'])]) (p : Passes c (l :: t) c') :
    skipHead more c = .ok (none, c') := by
  obtain ⟨first, p⟩ := passes_cons.mp p
  have word := skipWord_passes p
  simp only [List.mem_cons, Prod.mk.injEq, List.not_mem_nil, or_false] at known
  rcases known with ⟨rfl, rfl⟩ | ⟨rfl, rfl⟩ | ⟨rfl, rfl⟩ <;>
    simp only [skipHead, first, word, Except.map]

theorem skipHead_negative (digits : Unsigned t) (p : Passes c ('-' :: t) c')
    (bounded : c'.Bounded) : skipHead more c = .ok (none, c') := by
  obtain ⟨first, p⟩ := passes_cons.mp p
  simp only [skipHead, first, skipNumber_unsigned digits p bounded, Except.map]

theorem skipHead_unsigned (digits : Unsigned t) (p : Passes c t c') (bounded : c'.Bounded) :
    skipHead more c = .ok (none, c') := by
  have read := skipNumber_unsigned digits p bounded
  obtain ⟨d, r, rfl, digit⟩ := digits.head
  rw [skipHead_digit (passes_cons.mp p).1 digit, read, Except.map]

theorem skipHead_text (q : Quoted t) (p : Passes c ('"' :: (t ++ ['"'])) c')
    (enough : t.length < more) : skipHead more c = .ok (none, c') := by
  obtain ⟨first, p⟩ := passes_cons.mp p
  simp only [skipHead, first, skipString_quoted q enough p, Except.map]

def Bracket.opening : Bracket → Char
  | list => '['
  | object => '\x7b'

theorem skipHead_opening (first : c.peek? = some k.opening) :
    skipHead more c = .ok (some k, c.next) := by
  cases k <;> simp only [skipHead, first, Bracket.opening]

theorem skipColon_passes (blank : Blank b) (p : Passes c (b ++ [':']) c') :
    skipColon c = .ok c' := by
  obtain ⟨first, place⟩ := skipBlanks_cons blank p rfl
  simp only [skipColon, first, passes_nil.mp place]

/-- Past a name and its colon. -/
theorem skipKey_named {m : Member} (named : m.Named) (blank : Blank b)
    (p : Passes c (b ++ '"' :: (m.key ++ '"' :: (m.before ++ [':']))) c')
    (enough : m.key.length < more) : skipKey more c = .ok c' := by
  obtain ⟨quote, p⟩ := skipBlanks_cons blank p rfl
  rw [List.append_cons] at p
  obtain ⟨mid, front, back⟩ := passes_append.mp p
  simp only [skipKey, quote, skipString_quoted named.key.quoted enough front]
  exact skipColon_passes named.before back

end Heads

section Stacks

open Cursor (Bounded)

/-- What is left to do at a place where the next value of the innermost bracket begins. -/
def enter (more fuel : Nat) : List Bracket → Cursor → Except Failure Cursor
  | [], c => .ok c
  | .list :: stack, c => skipFrom more fuel (.list :: stack) c
  | .object :: stack, c => do
    let c ← skipKey more c
    skipFrom more fuel (.object :: stack) c

/-- What is left to do behind a value or behind an opening bracket. -/
def proceed (more fuel : Nat) (comma : Bool) (stack : List Bracket) (c : Cursor) :
    Except Failure Cursor := do
  let (stack, c) ← skipClosings more comma stack c
  enter more fuel stack c

theorem skipFrom_succ (more fuel : Nat) (stack : List Bracket) (c : Cursor) :
    skipFrom more (fuel + 1) stack c = (skipHead more c.skipBlanks >>= fun (opened, c) =>
      proceed more fuel opened.isNone (opened.toList ++ stack) c) := by
  rw [skipFrom]
  congr 1
  funext ⟨opened, c⟩
  simp only [proceed]
  congr 1
  funext ⟨stack, c⟩
  rcases stack with - | ⟨- | -, stack⟩ <;> rfl

variable {comma : Bool}

/-- How many steps are allowed does not show if they are enough. -/
theorem skipClosings_more {m n : Nat} (hm : c.rest.length < m) (hn : c.rest.length < n) :
    skipClosings m comma stack c = skipClosings n comma stack c := by
  induction m generalizing n comma stack c with
  | zero => cases hm
  | succ m ih =>
    obtain ⟨n, rfl⟩ := Nat.exists_eq_succ_of_ne_zero (Nat.ne_zero_of_lt hn)
    cases stack with
    | nil => simp only [skipClosings]
    | cons k stack =>
      simp only [skipClosings]
      cases first : c.skipBlanks.peek? with
      | none => rfl
      | some ch =>
        have shorter := c.length_next_skipBlanks first
        rw [ih (n := n) (by omega) (by omega)]

theorem proceed_closing (first : c.skipBlanks.peek? = some k.closing)
    (enough : c.rest.length < more) :
    proceed more fuel comma (k :: stack) c = proceed more fuel true stack c.skipBlanks.next := by
  obtain ⟨n, rfl⟩ := Nat.exists_eq_succ_of_ne_zero (Nat.ne_zero_of_lt enough)
  have shorter := c.length_next_skipBlanks first
  have other : k.closing ≠ ',' := by cases k <;> decide
  have steps : skipClosings (n + 1) comma (k :: stack) c =
      skipClosings (n + 1) true stack c.skipBlanks.next := by
    rw [skipClosings, first]
    simp only [other, decide_false, Bool.false_and, Bool.false_eq_true, if_false, if_true]
    exact skipClosings_more (by omega) (by omega)
  rw [proceed, proceed, steps]

theorem proceed_comma (first : c.skipBlanks.peek? = some ',') (enough : c.rest.length < more) :
    proceed more fuel true (k :: stack) c = enter more fuel (k :: stack) c.skipBlanks.next := by
  obtain ⟨n, rfl⟩ := Nat.exists_eq_succ_of_ne_zero (Nat.ne_zero_of_lt enough)
  simp only [proceed, skipClosings, first]
  rfl

theorem proceed_opening (first : c.skipBlanks.peek? = some ch) (other : ch ≠ k.closing)
    (enough : c.rest.length < more) :
    proceed more fuel false (k :: stack) c = enter more fuel (k :: stack) c.skipBlanks := by
  obtain ⟨n, rfl⟩ := Nat.exists_eq_succ_of_ne_zero (Nat.ne_zero_of_lt enough)
  simp only [proceed, skipClosings, first, Bool.and_false, Bool.false_eq_true, if_false, other]
  rfl

/-- Behind the place only what is open around it is left to do. -/
def Leads (more : Nat) (r : Except Failure Cursor) (stack : List Bracket) (c : Cursor) : Prop :=
  ∃ fuel, c.rest.length < fuel ∧ r = proceed more fuel true stack c

/-- Inside the bracket the item is passed over, whatever else is open. -/
def Skipped (k : Bracket) (x : List Char) : Prop :=
  ∀ ⦃more fuel stack b c c'⦄, Blank b → Passes c (b ++ x) c' → c'.Bounded →
    c.rest.length < more → c.rest.length < fuel →
    Leads more (enter more fuel (k :: stack) c) (k :: stack) c'

theorem bounded_of_blank (blank : Blank b) (sign : ch ∈ [',', ']', '\x7d'])
    (p : Passes c (b ++ ch :: u) c') : c.Bounded := by
  intro l first
  cases b with
  | nil =>
    rw [(passes_cons.mp p).1] at first
    cases first
    simp only [List.mem_cons, List.not_mem_nil, or_false] at sign
    rcases sign with rfl | rfl | rfl <;> decide
  | cons l' b =>
    rw [(passes_cons.mp p).1] at first
    cases first
    rcases blank l List.mem_cons_self with rfl | rfl | rfl | rfl <;> decide

variable {xs : List (List Char)}

theorem Others.bounded (h : Others xs t) (p : Passes c (t ++ [k.closing]) c') : c.Bounded := by
  cases h with
  | none blank => exact bounded_of_blank blank (by cases k <;> decide) p
  | next before behind rest =>
    rw [List.append_assoc] at p
    exact bounded_of_blank before (by decide) p

/-- Behind an item, up to the end of its bracket. -/
theorem proceed_others (h : Others xs t) (each : ∀ x ∈ xs, Skipped k x)
    (p : Passes c (t ++ [k.closing]) c') (steps : c.rest.length < more)
    (enough : c.rest.length < fuel) :
    Leads more (proceed more fuel true (k :: stack) c) stack c' := by
  -- Each further item starts anew at its comma, with the steps that the one before left over.
  induction h generalizing c fuel with
  | none blank =>
    obtain ⟨first, place⟩ := skipBlanks_cons blank p (by cases k <;> rfl)
    obtain rfl := passes_nil.mp place
    have shorter := c.length_next_skipBlanks first
    exact ⟨fuel, by omega, proceed_closing first steps⟩
  | next before behind rest ih =>
    simp only [List.cons_append, List.append_assoc] at p
    obtain ⟨first, p⟩ := skipBlanks_cons before p rfl
    have shorter := c.length_next_skipBlanks first
    rw [← List.append_assoc] at p
    obtain ⟨mid, front, back⟩ := passes_append.mp p
    obtain ⟨fuel', enough', read⟩ := each _ List.mem_cons_self behind front
      (rest.bounded back) (Nat.lt_trans shorter steps) (Nat.lt_trans shorter enough)
    rw [proceed_comma first steps, read]
    have length := front.length
    exact ih (fun x mem => each x (List.mem_cons_of_mem _ mem)) back (by omega) enough'

/-- From the opening bracket to the closing one. -/
theorem proceed_items (h : Items xs t) (each : ∀ x ∈ xs, Begins x ∧ Skipped k x)
    (p : Passes c (t ++ [k.closing]) c') (steps : c.rest.length < more)
    (enough : c.rest.length < fuel) :
    Leads more (proceed more fuel false (k :: stack) c) stack c' := by
  cases h with
  | none blank =>
    obtain ⟨first, place⟩ := skipBlanks_cons blank p (by cases k <;> rfl)
    obtain rfl := passes_nil.mp place
    have shorter := c.length_next_skipBlanks first
    exact ⟨fuel, by omega, proceed_closing first steps⟩
  | first blank rest =>
    obtain ⟨begins, skipped⟩ := each _ List.mem_cons_self
    obtain ⟨ch, mid, r, first, other, front, rest, back⟩ :=
      (Items.first blank rest).passes begins p
    have notEnd : ch ≠ k.closing := by
      rintro rfl
      exact other (by cases k <;> decide)
    have shorter := c.length_skipBlanks_le
    have none : Blank [] := fun _ mem => absurd mem List.not_mem_nil
    obtain ⟨fuel', enough', read⟩ := skipped none front (rest.bounded back)
      (Nat.lt_of_le_of_lt shorter steps) (Nat.lt_of_le_of_lt shorter enough)
    rw [proceed_opening first notEnd steps, read]
    have length := front.length
    exact proceed_others rest (fun x mem => (each x (List.mem_cons_of_mem _ mem)).2) back
      (by omega) enough'

/-- A value that is read at once leaves what is open as it was. -/
theorem skipFrom_atom {mid : Cursor} (start : c.skipBlanks = mid)
    (head : skipHead more mid = .ok (none, c')) (shorter : c'.rest.length < mid.rest.length)
    (enough : c.rest.length < fuel) : Leads more (skipFrom more fuel stack c) stack c' := by
  subst start
  obtain ⟨n, rfl⟩ := Nat.exists_eq_succ_of_ne_zero (Nat.ne_zero_of_lt enough)
  have le := c.length_skipBlanks_le
  rw [skipFrom_succ, head]
  exact ⟨n, by omega, rfl⟩

/-- From the blanks before it on, the value that is written so is passed over, whatever is open. -/
def Skippable (t : List Char) : Prop :=
  ∀ ⦃more fuel stack c c'⦄, Passes c.skipBlanks t c' → c'.Bounded → c.rest.length < more →
    c.rest.length < fuel → Leads more (skipFrom more fuel stack c) stack c'

theorem skippable_items (items : Items xs t) (inside : ∀ x ∈ xs, Begins x ∧ Skipped k x) :
    Skippable (k.opening :: (t ++ [k.closing])) := by
  intro more fuel stack c c' p bounded steps enough
  obtain ⟨n, rfl⟩ := Nat.exists_eq_succ_of_ne_zero (Nat.ne_zero_of_lt enough)
  obtain ⟨first, p⟩ := passes_cons.mp p
  have shorter := c.length_next_skipBlanks first
  rw [skipFrom_succ, skipHead_opening first]
  exact proceed_items items inside p (by omega) (by omega)

theorem skipped_element (begins : Begins t) (read : Skippable t) : Skipped .list t := by
  intro more fuel stack b c c' blank p bounded steps enough
  exact read (begins.passes_alone blank p) bounded steps enough

theorem skipped_member {m : Member} (named : m.Named) (begins : Begins m.text)
    (read : Skippable m.text) : Skipped .object m.written := by
  intro more fuel stack b c c' blank p bounded steps enough
  have parts : b ++ m.written =
      (b ++ '"' :: (m.key ++ '"' :: (m.before ++ [':']))) ++ (m.behind ++ m.text) := by
    simp [Member.written]
  rw [parts] at p
  obtain ⟨mid, key, p⟩ := passes_append.mp p
  have length := key.length
  simp only [List.length_append, List.length_cons] at length
  have past : skipKey more c = .ok mid := skipKey_named named blank key (by omega)
  rw [enter, past]
  exact read (begins.passes_alone named.behind p) bounded (by omega) (by omega)

/-- Every value is passed over up to its end. -/
theorem skippable_of_written {v : Value} (w : v.Written t) : Skippable t := by
  -- By how the value is written: what is inside a bracket is passed over whatever else is open, so
  -- with the bracket itself on the stack.
  induction w with
  | null | true | false =>
    intro more fuel stack c c' p bounded steps enough
    exact skipFrom_atom rfl (skipHead_word (by decide) p) (by simp [p.length]) enough
  | unsigned digits =>
    intro more fuel stack c c' p bounded steps enough
    have length := p.length
    refine skipFrom_atom rfl (skipHead_unsigned digits p bounded) ?_ enough
    obtain ⟨d, r, rfl, -⟩ := digits.head
    rw [length, List.length_cons]
    omega
  | negative digits =>
    intro more fuel stack c c' p bounded steps enough
    refine skipFrom_atom rfl (skipHead_negative digits p bounded) ?_ enough
    rw [p.length, List.length_cons]
    omega
  | text means =>
    intro more fuel stack c c' p bounded steps enough
    have le := c.length_skipBlanks_le
    have length := p.length
    simp only [List.length_cons, List.length_append] at length
    exact skipFrom_atom rfl (skipHead_text means.quoted p (by omega)) (by omega) enough
  | @list elements t each items ih =>
    refine skippable_items (k := .list) items ?_
    intro _ mem
    obtain ⟨e, own, rfl⟩ := List.mem_map.mp mem
    have begins := (each e own).begins
    exact ⟨begins, skipped_element begins (ih e own)⟩
  | @object members t named each items ih =>
    refine skippable_items (k := .object) items ?_
    intro _ mem
    obtain ⟨m, own, rfl⟩ := List.mem_map.mp mem
    exact ⟨m.begins, skipped_member (named m own) (each m own).begins (ih m own)⟩

theorem skipValue_written {v : Value} (w : v.Written t) (blank : Blank b)
    (p : Passes c (b ++ t) c') (bounded : c'.Bounded) (steps : c.rest.length < more) :
    skipValue more c = .ok c' := by
  obtain ⟨n, -, read⟩ :=
    skippable_of_written w (w.begins.passes_alone blank p) bounded steps steps
  rw [skipValue, read, proceed, skipClosings]
  rfl

end Stacks

end TypedDecl.Json
