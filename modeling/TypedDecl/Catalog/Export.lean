import TypedDecl.Catalog.Column
import TypedDecl.Json.Skip

namespace TypedDecl.Catalog

open Json (Cursor Reader Failure)

/-- What is said of a value that has another type than the one asked for. -/
def wrongType {α : Type} (more : Nat) (expected : String) (c : Cursor) : Except Failure α :=
  match c.peek? with
  | some 'n' => do
    let c ← Json.skipWord ['u', 'l', 'l'] c.next
    c.failHere (.wrongType "null" expected)
  | some 't' => do
    let c ← Json.skipWord ['r', 'u', 'e'] c.next
    c.failHere (.wrongType "boolean \x60true\x60" expected)
  | some 'f' => do
    let c ← Json.skipWord ['a', 'l', 's', 'e'] c.next
    c.failHere (.wrongType "boolean \x60false\x60" expected)
  | some '-' => do
    let (n, c) ← Json.number false c.next
    c.failHere (.wrongType n.shown expected)
  | some '"' => do
    let (s, c) ← Json.string more c.next
    c.failHere (.wrongType ("string " ++ Text.Quoted.quote s) expected)
  | some '[' => c.failHere (.wrongType "sequence" expected)
  | some '\x7b' => c.failHere (.wrongType "map" expected)
  | some ch =>
    if ch.isDigit then do
      let (n, c) ← Json.number true c
      c.failHere (.wrongType n.shown expected)
    else c.failAhead .expectedValue
  | none => c.failHere .endInValue

def textValue (more : Nat) : Reader String := fun c =>
  let c := c.skipBlanks
  if c.peek? = some '"' then Json.string more c.next else wrongType more "a string" c

def columnShape : String := "struct PropertyMetadata"

/-- Whether another item of a list follows; `first` tells that there was none yet. The place is then
at the item, and else at the closing bracket. -/
def nextItem (first : Bool) : Reader Bool := fun c =>
  let c := c.skipBlanks
  match c.peek? with
  | none => c.failHere .endInList
  | some ']' => .ok (false, c)
  | some ch =>
    if first then .ok (true, c)
    else if ch = ',' then
      let c := c.next.skipBlanks
      match c.peek? with
      | none => c.failHere .endInValue
      | some ']' => c.failAhead .trailingComma
      | some _ => .ok (true, c)
    else c.failAhead .expectedListEnd

def endList (c : Cursor) : Except Failure Cursor :=
  let c := c.skipBlanks
  match c.peek? with
  | some ']' => .ok c.next
  | some ',' =>
    let c := c.next.skipBlanks
    if c.peek? = some ']' then c.failAhead .trailingComma else c.failAhead .trailingCharacters
  | some _ => c.failAhead .trailingCharacters
  | none => c.failHere .endInList

/-- The texts of a column that is a list, of which so many were read and so many are to come. -/
def listedTexts (more : Nat) : Nat → Nat → Reader (List String)
  | _, 0, c => .ok ([], c)
  | count, left + 1, c => do
    let (found, c) ← nextItem (count = 0) c
    if found then
      let (s, c) ← textValue more c
      let (rest, c) ← listedTexts more (count + 1) left c
      pure (s :: rest, c)
    else c.next.failHere (.wrongLength count (columnShape ++ " with 4 elements"))

def listedColumn (more : Nat) : Reader Column := fun c => do
  let (texts, c) ← listedTexts more 0 4 c
  let c ← endList c
  match texts with
  | [schema, table, column, native] => pure (⟨schema, table, column, native⟩, c)
  | _ => c.failHere .trailingCharacters

structure PartialColumn where
  schema : Option String
  table : Option String
  column : Option String
  native : Option String

namespace PartialColumn

def empty : PartialColumn := ⟨none, none, none, none⟩

def get? (p : PartialColumn) (key : String) : Option (Option String) :=
  match key with
  | "schema" => some p.schema
  | "table" => some p.table
  | "column" => some p.column
  | "type" => some p.native
  | _ => none

def set (p : PartialColumn) (key value : String) : PartialColumn :=
  match key with
  | "schema" => { p with schema := some value }
  | "table" => { p with table := some value }
  | "column" => { p with column := some value }
  | "type" => { p with native := some value }
  | _ => p

/-- The column, or the first field that it lacks. -/
def complete (p : PartialColumn) : Except String Column :=
  match p.schema, p.table, p.column, p.native with
  | some schema, some table, some column, some native => .ok ⟨schema, table, column, native⟩
  | none, _, _, _ => .error "schema"
  | _, none, _, _ => .error "table"
  | _, _, none, _ => .error "column"
  | _, _, _, none => .error "type"

end PartialColumn

/-- Whether another key of an object follows. The place is then behind its quote, and else at the
closing brace. -/
def nextKey (first : Bool) : Reader Bool := fun c =>
  let c := c.skipBlanks
  match c.peek? with
  | none => c.failHere .endInObject
  | some '\x7d' => .ok (false, c)
  | some ch =>
    if first then
      if ch = '"' then .ok (true, c.next) else c.failAhead .keyMustBeString
    else if ch = ',' then
      let c := c.next.skipBlanks
      match c.peek? with
      | none => c.failHere .endInValue
      | some '"' => .ok (true, c.next)
      | some '\x7d' => c.failAhead .trailingComma
      | some _ => c.failAhead .keyMustBeString
    else c.failAhead .expectedObjectEnd

/-- The value of a key: that of a field that was not read before, or one that is passed over. -/
def fieldOf (more : Nat) (p : PartialColumn) (key : String) : Reader PartialColumn := fun c =>
  match p.get? key with
  | some (some _) =>
    let c := c.skipBlanks
    (if c.peek? = some '\x7d' then c.next else c).failHere (.repeatedField key)
  | some none => do
    let c ← Json.skipColon c
    let (value, c) ← textValue more c
    pure (p.set key value, c)
  | none => do
    let c ← Json.skipColon c
    let c ← Json.skipValue more c
    pure (p, c)

def fields (more : Nat) : Nat → Bool → PartialColumn → Reader Column
  | 0, _, _, c => c.failHere .endInObject
  | fuel + 1, first, p, c => do
    let (found, c) ← nextKey first c
    if found then
      let (key, c) ← Json.string more c
      let (p, c) ← fieldOf more p key c
      fields more fuel false p c
    else
      match p.complete with
      | .ok column => pure (column, c.next)
      | .error name => c.next.failHere (.missingField name)

def column (more : Nat) : Reader Column := fun c =>
  let c := c.skipBlanks
  match c.peek? with
  | some '[' => listedColumn more c.next
  | some '\x7b' => fields more more true .empty c.next
  | _ => wrongType more columnShape c

def columns (more : Nat) : Nat → Bool → Reader (List Column)
  | 0, _, c => c.failHere .endInList
  | fuel + 1, first, c => do
    let (found, c) ← nextItem first c
    if found then
      let (col, c) ← column more c
      let (rest, c) ← columns more fuel false c
      pure (col :: rest, c)
    else pure ([], c.next)

/-- The columns of a catalog from its text. -/
def parse (text : String) : Except Failure (List Column) := do
  let c := (Cursor.start text).skipBlanks
  let more := c.rest.length + 1
  if c.peek? = some '[' then
    let (cols, c) ← columns more more true c.next
    let c := c.skipBlanks
    if c.rest.isEmpty then pure cols else c.failAhead .trailingCharacters
  else wrongType more "a sequence" c

end TypedDecl.Catalog
