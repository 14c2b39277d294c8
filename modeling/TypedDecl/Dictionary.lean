namespace TypedDecl

structure Dictionary (κ : Type) (ν : Type) [DecidableEq κ] where
  entries : List (κ × ν)
  distinct : (entries.map Prod.fst).Nodup
  deriving Repr

namespace Dictionary

variable {κ ν : Type} [DecidableEq κ]

def empty : Dictionary κ ν := ⟨[], List.nodup_nil⟩

def insert (d : Dictionary κ ν) (k : κ) (v : ν) : Dictionary κ ν where
  entries := (k, v) :: d.entries.filter (·.1 ≠ k)
  distinct := by
    simp only [List.map_cons, List.nodup_cons, List.mem_map, List.mem_filter]
    refine ⟨fun ⟨e, he, hk⟩ => by simp [hk] at he, ?_⟩
    exact (List.Sublist.map _ List.filter_sublist).nodup d.distinct

def get? (d : Dictionary κ ν) (k : κ) : Option ν := d.entries.lookup k

def size (d : Dictionary κ ν) : Nat := d.entries.length

def isEmpty (d : Dictionary κ ν) : Bool := d.entries.isEmpty

theorem get?_empty (k : κ) : (empty : Dictionary κ ν).get? k = none := rfl

theorem lookup_filter_ne {k k' : κ} (h : k' ≠ k) (es : List (κ × ν)) :
    (es.filter (·.1 ≠ k)).lookup k' = es.lookup k' := by
  induction es with
  | nil => rfl
  | cons e es ih => grind

@[simp]
theorem get?_insert (d : Dictionary κ ν) (k k' : κ) (v : ν) :
    (d.insert k v).get? k' = if k' = k then some v else d.get? k' := by
  by_cases h : k' = k
  · subst h
    simp [get?, insert]
  · have hk : (k' == k) = false := by simpa using h
    rw [if_neg h, get?, insert, List.lookup_cons, hk]
    exact lookup_filter_ne h d.entries

end Dictionary

end TypedDecl
