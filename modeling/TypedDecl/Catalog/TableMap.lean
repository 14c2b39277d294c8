import TypedDecl.Catalog.Table
import TypedDecl.Dictionary

namespace TypedDecl

structure TableMap where
  entries : List (TableKey × Table)
  places : Dictionary TableKey Nat
  /-- The index knows the keys of the entries and no others. -/
  placed : ∀ k i, places.get? k = some i ↔ entries[i]?.map Prod.fst = some k

namespace TableMap

def empty : TableMap := ⟨[], .empty, by simp [Dictionary.get?_empty]⟩

def keys (m : TableMap) : List TableKey := m.entries.map Prod.fst

def tables (m : TableMap) : List Table := m.entries.map Prod.snd

def size (m : TableMap) : Nat := m.entries.length

def isEmpty (m : TableMap) : Bool := m.entries.isEmpty

def get? (m : TableMap) (k : TableKey) : Option Table :=
  (m.places.get? k).bind fun i => m.entries[i]?.map Prod.snd

theorem fst_modify (entries : List (TableKey × Table)) (i j : Nat) (f : Table → Table) :
    (entries.modify i fun e => (e.1, f e.2))[j]?.map Prod.fst = entries[j]?.map Prod.fst := by
  rw [List.getElem?_modify]
  cases entries[j]? with
  | none => rfl
  | some e => by_cases h : i = j <;> simp [h]

/-- Changes the table at a place of the index. -/
def modify (m : TableMap) (i : Nat) (f : Table → Table) : TableMap where
  entries := m.entries.modify i fun e => (e.1, f e.2)
  places := m.places
  placed := by
    intro k j
    rw [fst_modify]
    exact m.placed k j

@[simp] theorem entries_modify (m : TableMap) (i : Nat) (f : Table → Table) :
    (m.modify i f).entries = m.entries.modify i fun e => (e.1, f e.2) := rfl

/-- Adds a table whose key the index does not know. -/
def append (m : TableMap) (k : TableKey) (t : Table) (fresh : m.places.get? k = none) :
    TableMap where
  entries := m.entries ++ [(k, t)]
  places := m.places.insert k m.entries.length
  placed := by
    intro k' i
    have old := m.placed k' i
    have unknown := m.placed k i
    rw [Dictionary.get?_insert]
    rcases Nat.lt_trichotomy i m.entries.length with before | rfl | behind
    · rw [List.getElem?_append_left before]
      grind
    · grind
    · grind

@[simp] theorem entries_append (m : TableMap) (k : TableKey) (t : Table)
    (fresh : m.places.get? k = none) :
    (m.append k t fresh).entries = m.entries ++ [(k, t)] := rfl

/-- Puts a column to its table, which is a new one at the end if the index does not know it. -/
def push (withSchema : Bool) (m : TableMap) (c : Column) : TableMap :=
  match h : m.places.get? c.key with
  | some i => m.modify i (·.push c)
  | none => m.append c.key (Table.ofColumn withSchema c) h

def ofColumns (withSchema : Bool) (cs : List Column) : TableMap := cs.foldl (push withSchema) empty

end TableMap

end TypedDecl
