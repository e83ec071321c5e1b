import Workshare.Text.Decimal
import Workshare.Text.Quoted

namespace Workshare

inductive SocketAddress
  | v4 (ip : UInt32) (port : UInt16)
  | v6 (ip : BitVec 128) (port : UInt16) (flow scope : UInt32)
  deriving DecidableEq, Repr

namespace SocketAddress

def port : SocketAddress → UInt16
  | .v4 _ p => p
  | .v6 _ p _ _ => p

/-- The same IP address with another port, and with neither flow nor scope. -/
def withPort (p : UInt16) : SocketAddress → SocketAddress
  | .v4 ip _ => .v4 ip p
  | .v6 ip _ _ _ => .v6 ip p 0 0

/-- The big-endian digits of `n` to base `2 ^ bits`, `count` of them. -/
def pieces (bits count n : Nat) : List Nat :=
  (List.range count).map fun i => n >>> (bits * (count - 1 - i)) % 1 <<< bits

def joinPieces (bits : Nat) (ps : List Nat) : Nat :=
  ps.foldl (fun n p => n <<< bits + p) 0

def dotted (n : Nat) : List Char :=
  ['.'].intercalate ((pieces 8 4 n).map Decimal.digits)

def groupText (gs : List Nat) : List Char :=
  [':'].intercalate (gs.map Quoted.hex)

/-- Start and length of the first longest run of zeros, `i` being the index of the first element and
`run` the length of the run before it. -/
def longestZeros (i run : Nat) (best : Nat × Nat) : List Nat → Nat × Nat
  | [] => best
  | g :: gs =>
    if g = 0 then
      longestZeros (i + 1) (run + 1) (if best.2 < run + 1 then (i - run, run + 1) else best) gs
    else longestZeros (i + 1) 0 best gs

def ipv6Text (ip : Nat) : List Char :=
  let gs := pieces 16 8 ip
  if ip / UInt32.size = 0xFFFF then "::ffff:".toList ++ dotted (ip % UInt32.size)
  else
    let (start, count) := longestZeros 0 0 (0, 0) gs
    if 1 < count then groupText (gs.take start) ++ ':' :: ':' :: groupText (gs.drop (start + count))
    else groupText gs

/-- `a.b.c.d:port` or `[groups]:port`, the longest run of zero groups written as `::`. -/
def text : SocketAddress → String
  | .v4 ip port => String.ofList (dotted ip.toNat ++ ':' :: Decimal.digits port.toNat)
  | .v6 ip port _ scope =>
    let zone := if scope = 0 then [] else '%' :: Decimal.digits scope.toNat
    String.ofList ('[' :: ipv6Text ip.toNat ++ zone ++ ']' :: ':' :: Decimal.digits port.toNat)

def radixDigit? (radix : Nat) (c : Char) : Option Nat :=
  let n := c.toNat
  let d :=
    if 48 ≤ n ∧ n ≤ 57 then n - 48
    else if 97 ≤ n ∧ n ≤ 122 then n - 87
    else if 65 ≤ n ∧ n ≤ 90 then n - 55
    else 36
  if d < radix then some d else none

/-- A run of digits below `bound`, of at most `most` digits if that is given. -/
def readNumber (radix : Nat) (most : Option Nat) (leadingZero : Bool) (bound : Nat) (cs : List Char) :
    Option (Nat × List Char) :=
  let ds := cs.takeWhile fun c => (radixDigit? radix c).isSome
  let rest := cs.dropWhile fun c => (radixDigit? radix c).isSome
  let n := ds.foldl (fun n c => n * radix + (radixDigit? radix c).getD 0) 0
  if ds.isEmpty ∨ most.any (· < ds.length) then none
  else if !leadingZero ∧ ds.head? = some '0' ∧ 1 < ds.length then none
  else if n < bound then some (n, rest)
  else none

def expect (c : Char) : List Char → Option (List Char)
  | [] => none
  | d :: rest => if d = c then some rest else none

def readOctet (cs : List Char) : Option (Nat × List Char) :=
  readNumber 10 (some 3) false 256 cs

def readDotted (cs : List Char) : Option (Nat × List Char) := do
  let (a, cs) ← readOctet cs
  let (b, cs) ← readOctet (← expect '.' cs)
  let (c, cs) ← readOctet (← expect '.' cs)
  let (d, cs) ← readOctet (← expect '.' cs)
  return (joinPieces 8 [a, b, c, d], cs)

/-- Up to `count` groups with colons between them; a dotted address may stand for the last two and ends
the list. -/
def readGroups : (count : Nat) → (first : Bool) → List Char → List Nat × Bool × List Char
  | 0, _, cs => ([], false, cs)
  | count + 1, first, cs =>
    match if first then some cs else expect ':' cs with
    | none => ([], false, cs)
    | some body =>
      match if 1 ≤ count then readDotted body else none with
      | some (ip, rest) => ([ip / UInt16.size, ip % UInt16.size], true, rest)
      | none =>
        match readNumber 16 (some 4) true UInt16.size body with
        | none => ([], false, cs)
        | some (g, rest) =>
          let (gs, dotted, rest) := readGroups count false rest
          (g :: gs, dotted, rest)

def readIpv6 (cs : List Char) : Option (Nat × List Char) :=
  let (front, endsDotted, rest) := readGroups 8 true cs
  if front.length = 8 then some (joinPieces 16 front, rest)
  else if endsDotted then none
  else do
    let rest ← expect ':' (← expect ':' rest)
    let (back, _, rest) := readGroups (7 - front.length) true rest
    return (joinPieces 16 (front ++ List.replicate (8 - front.length - back.length) 0 ++ back), rest)

def readPort (cs : List Char) : Option (UInt16 × List Char) := do
  let (n, rest) ← readNumber 10 none true UInt16.size (← expect ':' cs)
  return (n.toUInt16, rest)

def readV4 (cs : List Char) : Option (SocketAddress × List Char) := do
  let (ip, cs) ← readDotted cs
  let (port, cs) ← readPort cs
  return (.v4 ip.toUInt32 port, cs)

def readScope (cs : List Char) : Option (Nat × List Char) := do
  readNumber 10 none true UInt32.size (← expect '%' cs)

def readV6 (cs : List Char) : Option (SocketAddress × List Char) := do
  let (ip, cs) ← readIpv6 (← expect '[' cs)
  let (scope, cs) := (readScope cs).getD (0, cs)
  let (port, cs) ← readPort (← expect ']' cs)
  return (.v6 (BitVec.ofNat 128 ip) port 0 scope.toUInt32, cs)

def read? (s : String) : Option SocketAddress :=
  match readV4 s.toList <|> readV6 s.toList with
  | some (a, []) => some a
  | _ => none

/-- The message for a text that is no socket address. -/
def readFault : String := "invalid socket address syntax"

end SocketAddress

end Workshare
