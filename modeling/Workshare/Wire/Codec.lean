import Workshare.Text.Utf8

namespace Workshare.Wire

/-- `cutShort` is a fixed-size field that the end of the input cuts, `cutContents` the same for the
contents of a string. -/
inductive Fault
  | cutShort
  | cutContents
  | utf8 (f : Utf8.Fault)
  | flag (byte : UInt8)
  | unknown
  deriving DecidableEq, Repr

/-- A fault of kind `unknown` (a tag without meaning, a payload that is no JSON) has no fixed wording. -/
def Fault.message : Fault → Option String
  | .cutShort => some "io error: unexpected end of file"
  | .cutContents => some "io error: "
  | .utf8 f => some ("string is not valid utf8: " ++ f.message)
  | .flag b =>
    some ("invalid u8 while decoding bool, expected 0 or 1, found " ++ toString b.toNat)
  | .unknown => none

abbrev Reader (α : Type) := List UInt8 → Except Fault (α × List UInt8)

/-- A writer with its reader; what the reader leaves over is the business of its caller. -/
structure Codec (α : Type) where
  write : α → List UInt8
  read : Reader α

/-- The `count` low bytes of a number, lowest first. -/
def littleEndian : (count : Nat) → Nat → List UInt8
  | 0, _ => []
  | count + 1, n => n.toUInt8 :: littleEndian count (n / 256)

def ofLittleEndian : List UInt8 → Nat
  | [] => 0
  | b :: bs => b.toNat + 256 * ofLittleEndian bs

/-- Exactly `count` bytes, or the given fault. -/
def takeBytes (f : Fault) (count : Nat) : Reader (List UInt8) := fun bs =>
  if count ≤ bs.length then .ok (bs.take count, bs.drop count) else .error f

def readWord (count : Nat) : Reader Nat := fun bs =>
  (takeBytes .cutShort count bs).map fun (w, rest) => (ofLittleEndian w, rest)

namespace Codec

variable {α β : Type}

def imap (f : α → β) (g : β → α) (c : Codec α) : Codec β where
  write b := c.write (g b)
  read bs := (c.read bs).map fun (a, rest) => (f a, rest)

def unit : Codec Unit where
  write _ := []
  read bs := .ok ((), bs)

def word8 : Codec UInt8 where
  write n := littleEndian 1 n.toNat
  read bs := (readWord 1 bs).map fun (n, rest) => (n.toUInt8, rest)

def word16 : Codec UInt16 where
  write n := littleEndian 2 n.toNat
  read bs := (readWord 2 bs).map fun (n, rest) => (n.toUInt16, rest)

def word32 : Codec UInt32 where
  write n := littleEndian 4 n.toNat
  read bs := (readWord 4 bs).map fun (n, rest) => (n.toUInt32, rest)

def word64 : Codec UInt64 where
  write n := littleEndian 8 n.toNat
  read bs := (readWord 8 bs).map fun (n, rest) => (n.toUInt64, rest)

def flag : Codec Bool where
  write b := [if b then 1 else 0]
  read
    | [] => .error .cutShort
    | b :: rest => if b = 0 then .ok (false, rest) else if b = 1 then .ok (true, rest) else .error (.flag b)

def string : Codec String where
  write s :=
    let bs := Utf8.encode s.toList
    littleEndian 8 bs.length ++ bs
  read bs := do
    let (n, rest) ← readWord 8 bs
    let (contents, rest) ← takeBytes .cutContents n rest
    match Utf8.decode contents with
    | .ok cs => .ok (String.ofList cs, rest)
    | .error f => .error (.utf8 f)

def bytes : Codec (List UInt8) where
  write bs := littleEndian 8 bs.length ++ bs
  read bs := do
    let (n, rest) ← readWord 8 bs
    takeBytes .cutShort n rest

def pair (c : Codec α) (d : Codec β) : Codec (α × β) where
  write p := c.write p.1 ++ d.write p.2
  read bs := do
    let (a, rest) ← c.read bs
    let (b, rest) ← d.read rest
    return ((a, b), rest)

def readMany (c : Codec α) : Nat → Reader (List α)
  | 0, bs => .ok ([], bs)
  | n + 1, bs => do
    let (a, rest) ← c.read bs
    let (as, rest) ← readMany c n rest
    return (a :: as, rest)

def list (c : Codec α) : Codec (List α) where
  write as := littleEndian 8 as.length ++ as.flatMap c.write
  read bs := do
    let (n, rest) ← readWord 8 bs
    readMany c n rest

/-- One of `n` alternatives behind its tag. -/
def tagged (n : Nat) (body : Fin n → Type) (c : (i : Fin n) → Codec (body i)) :
    Codec ((i : Fin n) × body i) where
  write v := littleEndian 4 v.1.val ++ (c v.1).write v.2
  read bs := do
    let (tag, rest) ← readWord 4 bs
    if h : tag < n then
      let (b, rest) ← (c ⟨tag, h⟩).read rest
      return (⟨⟨tag, h⟩, b⟩, rest)
    else .error .unknown

def either (c : Codec α) (d : Codec β) : Codec (α ⊕ β) where
  write
    | .inl a => littleEndian 4 0 ++ c.write a
    | .inr b => littleEndian 4 1 ++ d.write b
  read bs := do
    let (tag, rest) ← readWord 4 bs
    if tag = 0 then
      let (a, rest) ← c.read rest
      return (.inl a, rest)
    else if tag = 1 then
      let (b, rest) ← d.read rest
      return (.inr b, rest)
    else .error .unknown

/-- The value at the start of the input; what follows it is not looked at. -/
def decode (c : Codec α) (bs : List UInt8) : Except Fault α :=
  (c.read bs).map (·.1)

end Codec

end Workshare.Wire
