import TypedDecl.Dictionary
import TypedDecl.Error

namespace TypedDecl

def foldCase (s : String) : String := String.ofList (s.toList.map Char.toLower)

theorem toLower_toLower (c : Char) : c.toLower.toLower = c.toLower := by
  unfold Char.toLower
  grind

@[simp]
theorem foldCase_foldCase (s : String) : foldCase (foldCase s) = foldCase s := by
  rw [foldCase, foldCase, String.toList_ofList, List.map_map]
  exact congrArg _ (List.map_congr_left fun c _ => toLower_toLower c)

/-- Targets by native type in lower case. -/
structure TypeMap where
  targets : Dictionary String String
  folded : ∀ e ∈ targets.entries, foldCase e.1 = e.1
  deriving Repr

namespace TypeMap

def empty : TypeMap := ⟨.empty, fun _ h => absurd h List.not_mem_nil⟩

def insert (m : TypeMap) (native target : String) : TypeMap where
  targets := m.targets.insert (foldCase native) target
  folded := by
    intro e he
    obtain rfl | he := List.mem_cons.mp he
    · exact foldCase_foldCase native
    · exact m.folded e (List.mem_filter.mp he).1

def extend (m : TypeMap) (pairs : List (String × String)) : TypeMap :=
  pairs.foldl (fun m p => m.insert p.1 p.2) m

def get? (m : TypeMap) (native : String) : Option String := m.targets.get? (foldCase native)

def size (m : TypeMap) : Nat := m.targets.size

def isEmpty (m : TypeMap) : Bool := m.targets.isEmpty

def resolve (m : TypeMap) (c : Column) : Except Error String :=
  match m.get? c.native with
  | some target => .ok target
  | none => .error (.unsupportedType c)

def standardTypes : List (String × String) :=
  [("bigint", "i64"), ("binary", "Vec<u8>"), ("bit", "bool"), ("char", "String"),
   ("date", "chrono::NaiveDate"), ("datetime", "chrono::NaiveDateTime"),
   ("datetime2", "chrono::NaiveDateTime"),
   ("datetimeoffset", "chrono::DateTime<chrono::FixedOffset>"), ("decimal", "f64"),
   ("float", "f64"), ("image", "Vec<u8>"), ("int", "i32"), ("money", "f64"),
   ("nchar", "String"), ("ntext", "String"), ("numeric", "f64"), ("nvarchar", "String"),
   ("real", "f32"), ("rowversion", "Vec<u8>"), ("smalldatetime", "chrono::NaiveDateTime"),
   ("smallint", "i16"), ("smallmoney", "f64"), ("sysname", "String"), ("text", "String"),
   ("time", "chrono::NaiveTime"), ("timestamp", "Vec<u8>"), ("tinyint", "u8"),
   ("uniqueidentifier", "uuid::Uuid"), ("varbinary", "Vec<u8>"), ("varchar", "String"),
   ("xml", "String")]

def standard : TypeMap := empty.extend standardTypes

end TypeMap

end TypedDecl
