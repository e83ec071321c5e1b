import Workshare.Text.Quoted

namespace Workshare.Hex

def value? (c : Char) : Option Nat :=
  if '0' ≤ c && c ≤ '9' then some (c.toNat - '0'.toNat)
  else if 'a' ≤ c && c ≤ 'f' then some (c.toNat - 'a'.toNat + 10)
  else if 'A' ≤ c && c ≤ 'F' then some (c.toNat - 'A'.toNat + 10)
  else none

def encodeByte (b : UInt8) : List Char :=
  [Quoted.hexDigit (b.toNat / 16), Quoted.hexDigit (b.toNat % 16)]

def encode (bs : List UInt8) : String :=
  String.ofList (bs.flatMap encodeByte)

/-- A digit that is none counts as zero, and a last digit without a partner is dropped. -/
def decodePairs : List Char → List UInt8
  | a :: b :: rest => ((value? a).getD 0 * 16 + (value? b).getD 0).toUInt8 :: decodePairs rest
  | _ => []

def decode (s : String) : List UInt8 :=
  decodePairs s.toList

end Workshare.Hex
