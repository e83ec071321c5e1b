import Workshare.Text.Decimal

namespace Workshare

structure Duration where
  nanos : Nat
  deriving DecidableEq, Repr

namespace Duration

def ofMillis (n : Nat) : Duration :=
  ⟨n * 1000000⟩

/-- Whole milliseconds, the rest dropped. -/
def millis (d : Duration) : Nat :=
  d.nanos / 1000000

/-- Zeros before `n` up to `width` digits, and none after it. -/
def fraction (width n : Nat) : List Char :=
  let ds := Decimal.digits n
  ((List.replicate (width - ds.length) '0' ++ ds).reverse.dropWhile (· = '0')).reverse

def inUnit (scale width nanos : Nat) (unit : String) : String :=
  let decimals := fraction width (nanos % scale)
  let point := if decimals.isEmpty then [] else '.' :: decimals
  String.ofList (Decimal.digits (nanos / scale) ++ point) ++ unit

def text (d : Duration) : String :=
  if 1000000000 ≤ d.nanos then inUnit 1000000000 9 d.nanos "s"
  else if 1000000 ≤ d.nanos then inUnit 1000000 6 d.nanos "ms"
  else if 1000 ≤ d.nanos then inUnit 1000 3 d.nanos "µs"
  else inUnit 1 0 d.nanos "ns"

end Duration

end Workshare
