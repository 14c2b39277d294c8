import TypedDecl.Toml.Value

namespace TypedDecl.Toml

mutual

inductive Item
  | value (v : Value)
  | table (t : Table)
  /-- Tables that are elements of a list, the last of them first. -/
  | tables (last : Table) (before : List Table)

/-- A table; `passed` tells that nothing has defined it yet, and `dotted` that a dotted key has
passed through it. -/
inductive Table
  | mk (passed : Bool) (dotted : Bool) (items : List (String × Item))

end

namespace Table

def passed : Table → Bool
  | mk p _ _ => p

def dotted : Table → Bool
  | mk _ d _ => d

def items : Table → List (String × Item)
  | mk _ _ is => is

def empty : Table := mk false false []

def find? (key : String) (t : Table) : Option Item := t.items.lookup key

def putItem (key : String) (item : Item) : List (String × Item) → List (String × Item)
  | [] => [(key, item)]
  | (k, i) :: is => if k = key then (key, item) :: is else (k, i) :: putItem key item is

def put (key : String) (item : Item) (t : Table) : Table :=
  mk t.passed t.dotted (putItem key item t.items)

/-- Changes the table that the keys lead to. Tables that are not there yet are made; of a list of
tables the last one counts. Dotted keys do not lead into a table that is defined. -/
def modifyAt (byDots : Bool) (f : Table → Option Table) : List String → Table → Option Table
  | [], t => f t
  | k :: ks, t =>
    match t.find? k with
    | none => (modifyAt byDots f ks (mk true byDots [])).map fun c => t.put k (.table c)
    | some (.value _) => none
    | some (.tables last before) =>
      (modifyAt byDots f ks last).map fun c => t.put k (.tables c before)
    | some (.table c) =>
      if byDots && !c.passed then none
      else (modifyAt byDots f ks c).map fun c => t.put k (.table c)

def add (key : String) (item : Item) (t : Table) : Option Table :=
  if (t.find? key).isSome then none else some (t.put key item)

def addDotted (keys : List String) (key : String) (item : Item) (t : Table) : Option Table :=
  modifyAt true (fun c => if keys.isEmpty || c.dotted then c.add key item else none) keys t

def define (key : String) (t : Table) : Option Table :=
  match t.find? key with
  | none => some (t.put key (.table empty))
  | some (.table c) =>
    if c.passed && !c.dotted then some (t.put key (.table (mk false false c.items))) else none
  | some _ => none

def append (key : String) (t : Table) : Option Table :=
  match t.find? key with
  | none => some (t.put key (.tables empty []))
  | some (.tables last before) => some (t.put key (.tables empty (last :: before)))
  | some _ => none

end Table

mutual

def Item.toValue : Item → Value
  | .value v => v
  | .table t => t.toValue
  | .tables last before => .list (Table.valuesOf before [last.toValue])

def Table.toValue : Table → Value
  | .mk _ _ items => .table (Item.entriesOf items)

def Table.valuesOf : List Table → List Value → List Value
  | [], acc => acc
  | t :: ts, acc => Table.valuesOf ts (t.toValue :: acc)

def Item.entriesOf : List (String × Item) → List (String × Value)
  | [] => []
  | (k, i) :: is => (k, i.toValue) :: Item.entriesOf is

end

def Table.entries (t : Table) : List (String × Value) := Item.entriesOf t.items

end TypedDecl.Toml
