namespace TypedDecl.Unicode

/-- The property `White_Space`. -/
def isBlank (c : Char) : Bool :=
  let n := c.toNat
  (9 ≤ n && n ≤ 13) || n == 32 || n == 0x85 || n == 0xa0 || n == 0x1680 ||
    (0x2000 ≤ n && n ≤ 0x200a) || n == 0x2028 || n == 0x2029 || n == 0x202f || n == 0x205f ||
    n == 0x3000

def trimChars (cs : List Char) : List Char :=
  ((cs.dropWhile isBlank).reverse.dropWhile isBlank).reverse

def allBlank (s : String) : Bool :=
  s.toList.all isBlank

/-- Takes off the carriage return of a line that a line feed ended. -/
def dropReturn (line : List Char) : List Char :=
  match line.getLast? with
  | some '\r' => line.dropLast
  | _ => line

/-- The lines of a text. A line feed ends a line, together with a carriage return before it; the
text after the last line feed is a line unless it is empty. -/
def linesGo : List Char → List Char → List (List Char)
  | [], [] => []
  | acc, [] => [acc.reverse]
  | acc, c :: cs =>
    if c = '\n' then dropReturn acc.reverse :: linesGo [] cs else linesGo (c :: acc) cs

def lines (s : String) : List String :=
  (linesGo [] s.toList).map String.ofList

end TypedDecl.Unicode
