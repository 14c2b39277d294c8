import TypedDecl.Json.Cursor

namespace TypedDecl.Json

/-- A value. A string is none if a surrogate stands alone in it, for it is no text then; the same
goes for the names in an object. A number is as it is written. -/
inductive Value
  | null
  | bool (b : Bool)
  | number (written : List Char)
  | text (s : Option String)
  | list (elements : List Value)
  | object (members : List (Option String × Value))

section Strings

/-- A hexadecimal digit in either case, and the number that it stands for. -/
inductive HexDigit : Char → Nat → Prop
  | decimal {c : Char} (low : '0' ≤ c) (high : c ≤ '9') : HexDigit c (c.toNat - 48)
  | small {c : Char} (low : 'a' ≤ c) (high : c ≤ 'f') : HexDigit c (c.toNat - 87)
  | capital {c : Char} (low : 'A' ≤ c) (high : c ≤ 'F') : HexDigit c (c.toNat - 55)

/-- Four hexadecimal digits and the number that they stand for. -/
inductive HexCode : List Char → Nat → Prop
  | digits {a b c d : Char} {i j k l : Nat} (first : HexDigit a i) (second : HexDigit b j)
      (third : HexDigit c k) (fourth : HexDigit d l) :
      HexCode [a, b, c, d] (4096 * i + 256 * j + 16 * k + l)

/-- What the letters of the short escapes stand for. -/
def letterEscapes : List (Char × Char) :=
  [('"', '"'), ('\\', '\\'), ('/', '/'), ('b', '\x08'), ('f', '\x0c'), ('n', '\n'), ('r', '\r'),
    ('t', '\t')]

/-- A character that may stand for itself between quotes. -/
def Unescaped (c : Char) : Prop := c ≠ '"' ∧ c ≠ '\\' ∧ 32 ≤ c.toNat

instance (c : Char) : Decidable (Unescaped c) :=
  inferInstanceAs (Decidable (c ≠ '"' ∧ c ≠ '\\' ∧ 32 ≤ c.toNat))

/-- What stands between quotes for one character: the character itself or an escape, or a pair of
escapes. -/
inductive Piece : List Char → Char → Prop
  | plain {c : Char} (own : Unescaped c) : Piece [c] c
  | letter {e : Char × Char} (known : e ∈ letterEscapes) : Piece ['\\', e.1] e.2
  | code {c : Char} {ds : List Char} (digits : HexCode ds c.toNat) : Piece ('\\' :: 'u' :: ds) c
  | pair {c : Char} {ds ds' : List Char} {i j : Nat} (high : HexCode ds (0xd800 + i))
      (low : HexCode ds' (0xdc00 + j)) (small : j < 0x400)
      (char : c.toNat = 0x10000 + 0x400 * i + j) :
      Piece ('\\' :: 'u' :: (ds ++ '\\' :: 'u' :: ds')) c

/-- The characters that what stands between quotes stands for. -/
inductive Denotes : List Char → List Char → Prop
  | nil : Denotes [] []
  | cons {c : Char} {u t cs : List Char} (first : Piece u c) (rest : Denotes t cs) :
      Denotes (u ++ t) (c :: cs)

/-- A character or an escape, which need not stand for any character. -/
inductive Sign : List Char → Prop
  | plain {c : Char} (own : Unescaped c) : Sign [c]
  | letter {e : Char × Char} (known : e ∈ letterEscapes) : Sign ['\\', e.1]
  | code {ds : List Char} {n : Nat} (digits : HexCode ds n) : Sign ('\\' :: 'u' :: ds)

/-- What may stand between the quotes of a string. -/
inductive Quoted : List Char → Prop
  | nil : Quoted []
  | cons {u t : List Char} (first : Sign u) (rest : Quoted t) : Quoted (u ++ t)

theorem Denotes.own {t : List Char} (own : t.all (Unescaped ·) = true) : Denotes t t := by
  induction t with
  | nil => exact .nil
  | cons c t ih =>
    obtain ⟨first, others⟩ := Bool.and_eq_true_iff.mp own
    exact .cons (.plain (of_decide_eq_true first)) (ih others)

/-- The text that what stands between quotes stands for, or that it is none. -/
def Means (t : List Char) : Option String → Prop
  | some s => Denotes t s.toList
  | none => Quoted t ∧ ∀ cs, ¬ Denotes t cs

end Strings

section Numbers

/-- One digit at least. -/
inductive Digits : List Char → Prop
  | one {d : Char} (digit : d.isDigit = true) : Digits [d]
  | more {d : Char} {ds : List Char} (digit : d.isDigit = true) (rest : Digits ds) :
      Digits (d :: ds)

/-- The digits before the point, of which a zero stands alone. -/
inductive Whole : List Char → Prop
  | zero : Whole ['0']
  | digits {d : Char} {ds : List Char} (nonzero : d ≠ '0') (all : Digits (d :: ds)) :
      Whole (d :: ds)

inductive Places : List Char → Prop
  | none : Places []
  | some {ds : List Char} (digits : Digits ds) : Places ('.' :: ds)

inductive Power : List Char → Prop
  | none : Power []
  | some {e : Char} {sign ds : List Char} (letter : e = 'e' ∨ e = 'E')
      (signed : sign ∈ [[], ['+'], ['-']]) (digits : Digits ds) : Power (e :: (sign ++ ds))

/-- A number behind its sign. -/
inductive Unsigned : List Char → Prop
  | parts {whole places power : List Char} (hw : Whole whole) (hp : Places places)
      (he : Power power) : Unsigned (whole ++ (places ++ power))

end Numbers

section Values

def Blank (b : List Char) : Prop := ∀ c ∈ b, c = ' ' ∨ c = '\n' ∨ c = '\t' ∨ c = '\r'

/-- What stands behind an item, up to the closing bracket: other items, each behind a comma. -/
inductive Others : List (List Char) → List Char → Prop
  | none {b : List Char} (blank : Blank b) : Others [] b
  | next {b b' x t : List Char} {xs : List (List Char)} (before : Blank b) (behind : Blank b')
      (rest : Others xs t) : Others (x :: xs) (b ++ ',' :: (b' ++ (x ++ t)))

/-- What stands between two brackets: items with commas between them. -/
inductive Items : List (List Char) → List Char → Prop
  | none {b : List Char} (blank : Blank b) : Items [] b
  | first {b x t : List Char} {xs : List (List Char)} (blank : Blank b) (rest : Others xs t) :
      Items (x :: xs) (b ++ (x ++ t))

/-- A member of an object with its text: its name, the blanks around the colon and its value. -/
structure Member where
  name : Option String
  key : List Char
  before : List Char
  behind : List Char
  value : Value
  text : List Char

namespace Member

def written (m : Member) : List Char :=
  '"' :: (m.key ++ '"' :: (m.before ++ ':' :: (m.behind ++ m.text)))

/-- The name and the blanks are what they should be. -/
structure Named (m : Member) : Prop where
  key : Means m.key m.name
  before : Blank m.before
  behind : Blank m.behind

end Member

/-- The value is written so, without blanks around it. -/
inductive Value.Written : Value → List Char → Prop
  | null : Written null ['n', 'u', 'l', 'l']
  | true : Written (bool true) ['t', 'r', 'u', 'e']
  | false : Written (bool false) ['f', 'a', 'l', 's', 'e']
  | unsigned {t : List Char} (digits : Unsigned t) : Written (number t) t
  | negative {t : List Char} (digits : Unsigned t) : Written (number ('-' :: t)) ('-' :: t)
  | text {s : Option String} {t : List Char} (means : Means t s) :
      Written (text s) ('"' :: (t ++ ['"']))
  | list {elements : List (Value × List Char)} {t : List Char}
      (each : ∀ e ∈ elements, Written e.1 e.2) (items : Items (elements.map Prod.snd) t) :
      Written (list (elements.map Prod.fst)) ('[' :: (t ++ [']']))
  | object {members : List Member} {t : List Char} (named : ∀ m ∈ members, m.Named)
      (each : ∀ m ∈ members, Written m.value m.text)
      (items : Items (members.map Member.written) t) :
      Written (object (members.map fun m => (m.name, m.value))) ('\x7b' :: (t ++ ['\x7d']))

/-- A text as it is, between quotes. -/
def inQuotes (s : String) : List Char := '"' :: (s.toList ++ ['"'])

theorem Value.Written.own {s : String} (own : s.toList.all (Unescaped ·)) :
    (Value.text (some s)).Written (inQuotes s) := .text (.own own)

/-- The text is that of the value, with blanks around it. -/
def Value.IsTextOf (v : Value) (text : String) : Prop :=
  ∃ b t b', Blank b ∧ v.Written t ∧ Blank b' ∧ text.toList = b ++ (t ++ b')

end Values

end TypedDecl.Json
