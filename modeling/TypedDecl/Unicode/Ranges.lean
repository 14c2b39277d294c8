namespace TypedDecl.Unicode

/-- Closed intervals of code points, in rising order. -/
abbrev Ranges := List (Nat × Nat)

def Ranges.has (ranges : Ranges) (c : Char) : Bool :=
  ranges.any fun r => r.1 ≤ c.toNat && c.toNat ≤ r.2

end TypedDecl.Unicode
