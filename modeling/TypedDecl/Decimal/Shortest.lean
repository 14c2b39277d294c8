namespace TypedDecl.Decimal

/-- The power that a positive exponent asks for, and one for any other. -/
def raised (base : Nat) (e : Int) : Nat := Nat.pow base e.toNat

/-- The power by which a negative exponent divides, and one for any other. -/
def divisor (base : Nat) (e : Int) : Nat := Nat.pow base (-e).toNat

/-- The number `m * 2 ^ q`, and whether the next smaller one is only half as far as the next
larger one. -/
structure Binary where
  m : Nat
  q : Int
  closeBelow : Bool
  deriving DecidableEq, Repr

namespace Binary

/-- The bit before those of the fraction, which is not written. -/
def hidden : Nat := 0x10000000000000

/-- A positive finite number by its bits, the sign left out. -/
def ofBits (bits : Nat) : Binary :=
  let fraction := bits % hidden
  let exponent : Nat := bits / hidden % 0x800
  if exponent = 0 then ⟨fraction, -1074, false⟩
  else ⟨hidden + fraction, (exponent : Int) - 1075, fraction = 0 && exponent ≠ 1⟩

/-- Four times the number is `n * 2 ^ q`; whether `c * 10 ^ p` is at most a quarter of that. -/
def atMost (b : Binary) (c : Nat) (p : Int) (n : Nat) : Bool :=
  4 * c * raised 10 p * divisor 2 b.q ≤ n * raised 2 b.q * divisor 10 p

def atLeast (b : Binary) (c : Nat) (p : Int) (n : Nat) : Bool :=
  n * raised 2 b.q * divisor 10 p ≤ 4 * c * raised 10 p * divisor 2 b.q

/-- Whether `c * 10 ^ p` rounds to the number. The ends of the interval go to even numbers. -/
def holds (b : Binary) (c : Nat) (p : Int) : Bool :=
  let low := 4 * b.m - if b.closeBelow then 1 else 2
  let high := 4 * b.m + 2
  if b.m % 2 = 0 then b.atLeast c p low && b.atMost c p high
  else !b.atMost c p low && !b.atLeast c p high

/-- The largest point of a decimal grid that is not above the number. -/
def below (b : Binary) (p : Int) : Nat :=
  b.m * raised 2 b.q * divisor 10 p / (raised 10 p * divisor 2 b.q)

/-- Twice the distance to a point of the grid is compared with the grid's step: the upper neighbour
is nearer, or as near and even. -/
def roundsUp (b : Binary) (c : Nat) (p : Int) : Bool :=
  let twice := 2 * b.m * raised 2 b.q * divisor 10 p
  let middle := (2 * c + 1) * raised 10 p * divisor 2 b.q
  middle < twice || middle = twice && c % 2 = 1

/-- The point of the grid that reads back, of two the nearer. -/
def onGrid? (b : Binary) (p : Int) : Option Nat :=
  let c := b.below p
  match 0 < c && b.holds c p, b.holds (c + 1) p with
  | true, true => some (if b.roundsUp c p then c + 1 else c)
  | true, false => some c
  | false, true => some (c + 1)
  | false, false => none

/-- The first grid with such a point, from `p` on to finer ones. -/
def search (b : Binary) : Nat → Int → Nat × Int
  | 0, p => (b.below p, p)
  | fuel + 1, p =>
    match b.onGrid? p with
    | some c => (c, p)
    | none => search b fuel (p - 1)

def shortest (b : Binary) : Nat × Int := b.search 700 330

end Binary

/-- Digits with a point among them, or with an exponent where there would be more than sixteen
places before the point or more than four zeros after it. -/
def text (digits : Nat) (p : Int) : String :=
  let ds := Nat.toDigits 10 digits
  let places : Int := ds.length + p
  if 0 ≤ p && places ≤ 16 then String.ofList (ds ++ List.replicate p.toNat '0') ++ ".0"
  else if 0 < places && places ≤ 16 then
    String.ofList (ds.take places.toNat ++ '.' :: ds.drop places.toNat)
  else if -5 < places && places ≤ 0 then
    "0." ++ String.ofList (List.replicate (-places).toNat '0' ++ ds)
  else
    String.ofList (ds.take 1 ++ (if ds.length = 1 then [] else '.' :: ds.drop 1)) ++ "e" ++
      toString (places - 1)

/-- A finite number in the fewest digits. -/
def floatText (f : Float) : String :=
  let bits := f.toBits.toNat
  let magnitude := bits % 0x8000000000000000
  (if bits = magnitude then "" else "-") ++
    if magnitude = 0 then "0.0"
    else
      let (digits, p) := (Binary.ofBits magnitude).shortest
      text digits p

end TypedDecl.Decimal
