import Workshare.Text.Decimal

namespace Workshare

/-- The value `mant * 2 ^ exp`, negated if `negative`. A double in canonical form has
`mant < 2 ^ 53` and `-1074 ≤ exp`, and `2 ^ 52 ≤ mant` unless `exp = -1074`. -/
structure Double where
  negative : Bool
  mant : Nat
  exp : Int
  deriving DecidableEq, Repr

namespace Double

/-- Canonical mantissas lie below this. -/
def mantLimit : Nat := 0x20000000000000

/-- The least mantissa of a double that is not subnormal. -/
def leastNormal : Nat := 0x10000000000000

def zero (negative : Bool) : Double :=
  ⟨negative, 0, -1074⟩

/-- `num / den * 2 ^ (-e)` as a quotient of natural numbers. -/
def scaleDown (num den : Nat) (e : Int) : Nat × Nat :=
  if 0 ≤ e then (num, den <<< e.toNat) else (num <<< (-e).toNat, den)

/-- The integer nearest to `num / den`; a tie goes to the even one. -/
def divNearest (num den : Nat) : Nat :=
  let q := num / den
  let r := num % den
  if den < 2 * r ∨ (2 * r = den ∧ q % 2 = 1) then q + 1 else q

/-- The double nearest to `num / den`, a tie going to the even mantissa; `none` beyond the largest
finite double. -/
def ofRatio (negative : Bool) (num den : Nat) : Option Double :=
  if num = 0 then some (zero negative)
  else
    let guess := max (-1074) ((num.log2 : Int) - (den.log2 : Int) - 53)
    let first := scaleDown num den guess
    let e := if mantLimit ≤ first.1 / first.2 then guess + 1 else guess
    let scaled := scaleDown num den e
    let m := divNearest scaled.1 scaled.2
    let (m, e) := if m = mantLimit then (leastNormal, e + 1) else (m, e)
    if 971 < e then none else some ⟨negative, m, e⟩

def ratio (x : Double) : Nat × Nat :=
  if 0 ≤ x.exp then (x.mant <<< x.exp.toNat, 1) else (x.mant, 1 <<< (-x.exp).toNat)

def mul? (x y : Double) : Option Double :=
  let (a, b) := x.ratio
  let (c, d) := y.ratio
  ofRatio (x.negative != y.negative) (a * c) (b * d)

def div? (x y : Double) : Option Double :=
  let (a, b) := x.ratio
  let (c, d) := y.ratio
  ofRatio (x.negative != y.negative) (a * d) (b * c)

/-- Ten to the `k`, rounded; finite for `k ≤ 308`. -/
def pow10? (k : Nat) : Option Double :=
  ofRatio false (Nat.pow 10 k) 1

/-- A significand scaled by a power of ten in rounded steps, each by a rounded power of at most
`10 ^ 308`; `none` beyond the largest finite double. -/
def ofDecimal (negative : Bool) (significand : Nat) (exponent : Int) : Option Double :=
  if significand = 0 then some (zero negative)
  else
    let k := exponent.natAbs
    if 0 ≤ exponent then
      if 308 < k then none else do (← ofRatio negative significand 1).mul? (← pow10? k)
    else if k ≤ 308 then do
      (← ofRatio negative significand 1).div? (← pow10? k)
    else if k ≤ 616 then do
      (← (← ofRatio negative significand 1).div? (← pow10? 308)).div? (← pow10? (k - 308))
    else some (zero negative)

/-- The reals that round to a double, in units of a quarter of its last place: below, value, above, and
whether the ends belong to them. -/
def neighbourhood (x : Double) : Nat × Nat × Nat × Bool :=
  let below := if x.mant = leastNormal ∧ -1074 < x.exp then 4 * x.mant - 1 else 4 * x.mant - 2
  (below, 4 * x.mant, 4 * x.mant + 2, x.mant % 2 = 0)

/-- Of the two grid points `q` and `q + 1` around `num / den` the nearest that lies between `lo / den` and
`hi / den`. -/
def nearestInside (lo num hi den : Nat) (closed : Bool) : Option Nat :=
  let q := num / den
  let inside (d : Nat) : Bool :=
    if closed then lo ≤ d * den ∧ d * den ≤ hi else lo < d * den ∧ d * den < hi
  let nearer := divNearest num den
  let other := if nearer = q then q + 1 else q
  if inside nearer then some nearer else if inside other then some other else none

/-- The first of the decimal grids with `n`, `n + 1`, … digits that has a point inside, and that point;
`place` is the number of digits before the decimal point. -/
def firstGrid (lo num hi den : Nat) (closed : Bool) (place : Int) : Nat → Nat → Nat × Int
  | _, 0 => (0, 0)
  | n, fuel + 1 =>
    let shift := place - n
    let up := Nat.pow 10 (-shift).toNat
    let down := Nat.pow 10 shift.toNat
    match nearestInside (lo * up) (num * up) (hi * up) (den * down) closed with
    | some d => (d, shift)
    | none => firstGrid lo num hi den closed place (n + 1) fuel

/-- Digits without trailing zeros, and the number of digits before the decimal point. -/
structure Shortest where
  digits : List Char
  point : Int
  deriving DecidableEq, Repr

/-- The fewest digits that read back as the magnitude of a non-zero double, and of those the nearest. -/
def shortest (x : Double) : Shortest :=
  let (below, value, above, closed) := x.neighbourhood
  let e := x.exp - 2
  let up := 1 <<< e.toNat
  let den := 1 <<< (-e).toNat
  let num := value * up
  let place : Int :=
    if den ≤ num then (Decimal.digits (num / den)).length
    else 1 - ((Decimal.digits ((den - 1) / num)).length : Int)
  let (d, shift) := firstGrid (below * up) num (above * up) den closed place 1 17
  let ds := Decimal.digits d
  ⟨(ds.reverse.dropWhile (· = '0')).reverse, ds.length + shift⟩

/-- How doubles are laid out as text: the least and largest number of digits before the point that are
written positionally, and the marks before a non-negative and a negative exponent. -/
structure Layout where
  leastPoint : Int
  mostPoint : Int
  positiveExponent : List Char
  negativeExponent : List Char

/-- Positional between `1e-5` and `1e16`, where a whole number keeps `.0`; else an exponent with its
sign. -/
def layout : Layout :=
  ⟨-4, 16, ['e', '+'], ['e', '-']⟩

def Layout.place (l : Layout) (s : Shortest) : List Char :=
  let n : Int := s.digits.length
  if l.leastPoint ≤ s.point ∧ s.point ≤ l.mostPoint then
    if n ≤ s.point then s.digits ++ List.replicate (s.point - n).toNat '0' ++ ['.', '0']
    else if 0 < s.point then s.digits.take s.point.toNat ++ '.' :: s.digits.drop s.point.toNat
    else '0' :: '.' :: List.replicate (-s.point).toNat '0' ++ s.digits
  else
    let e := s.point - 1
    let mark := if 0 ≤ e then l.positiveExponent else l.negativeExponent
    let head :=
      match s.digits with
      | [] => []
      | [d] => [d]
      | d :: ds => d :: '.' :: ds
    head ++ mark ++ Decimal.digits e.natAbs

def text (x : Double) : List Char :=
  let sign := if x.negative then ['-'] else []
  if x.mant = 0 then sign ++ ['0', '.', '0'] else sign ++ layout.place x.shortest

end Double

end Workshare
