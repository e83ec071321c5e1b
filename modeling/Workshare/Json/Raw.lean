import Workshare.Json.Value
import Workshare.Text.Hex

namespace Workshare.Json

/-- `data` is well-formed text of the wrong kind, `eof` a premature end, `malformed` anything else. -/
inductive Fault
  | malformed
  | data
  | eof
  deriving DecidableEq, Repr

/-- A fault at the given rest of the text: at its end the text is incomplete. -/
def Fault.at (rest : List Char) : Fault :=
  if rest.isEmpty then .eof else .malformed

/-- A leaf: what a strict reader makes of it, and the fault that even skipping it meets. -/
structure Leaf (α : Type) where
  strict : Except Fault α
  skipped : Option Fault
  deriving Repr

inductive Number
  | int (n : Int)
  | real (x : Double)
  deriving DecidableEq, Repr

mutual

/-- JSON text as a tree of what stands where, faults included. What a strict reader would refuse earlier is kept
at the leaf, so that each use of the tree can report the first fault on its own way through it. Here `word` is a
literal that goes wrong after its first letter; `absent` means that no value starts here. -/
inductive Raw
  | null
  | bool (b : Bool)
  | word (f : Fault)
  | num (n : Leaf Number)
  | str (s : Leaf String)
  | arr (items : Items)
  | obj (members : Members)
  | absent (f : Fault)

/-- `broken` is a fault where a comma or the closing bracket should stand. -/
inductive Items
  | closed
  | broken (f : Fault)
  | cons (v : Raw) (rest : Items)

/-- `stray` holds what stands where a key should; a missing colon makes the value `absent`. -/
inductive Members
  | closed
  | broken (f : Fault)
  | stray (v : Raw)
  | cons (key : Leaf String) (v : Raw) (rest : Members)

end

instance : Inhabited Raw := ⟨.null⟩

def isBlank (c : Char) : Bool :=
  c = ' ' || c = '\n' || c = '\t' || c = '\r'

def skipBlanks (cs : List Char) : List Char :=
  cs.dropWhile isBlank

/-- Four hexadecimal digits. With fewer than four bytes left the text is incomplete. -/
def readHex4 (cs : List Char) : Except Fault (Nat × List Char) :=
  match cs with
  | a :: b :: c :: d :: rest =>
    match Hex.value? a, Hex.value? b, Hex.value? c, Hex.value? d with
    | some a, some b, some c, some d => .ok (((a * 16 + b) * 16 + c) * 16 + d, rest)
    | _, _, _, _ => .error .malformed
  | few => .error (if few.foldl (fun n c => n + c.utf8Size) 0 < 4 then .eof else .malformed)

/-- The trailing half of a surrogate pair whose leading half is `high`. -/
def readLowSurrogate (high : Nat) (cs : List Char) : Except Fault Char :=
  match cs with
  | [] => .error .eof
  | '\\' :: [] => .error .eof
  | '\\' :: 'u' :: rest =>
    match readHex4 rest with
    | .error f => .error f
    | .ok (low, _) =>
      if 0xDC00 ≤ low ∧ low ≤ 0xDFFF then
        .ok (Char.ofNat (0x10000 + (high - 0xD800) * 0x400 + (low - 0xDC00)))
      else .error .malformed
  | _ => .error .malformed

def simpleEscape? (c : Char) : Option Char :=
  if c = '"' then some '"'
  else if c = '\\' then some '\\'
  else if c = '/' then some '/'
  else if c = 'b' then some (Char.ofNat 8)
  else if c = 'f' then some (Char.ofNat 12)
  else if c = 'n' then some '\n'
  else if c = 'r' then some '\r'
  else if c = 't' then some '\t'
  else none

/-- A strict string under construction: the characters so far, newest first, or the first fault. -/
abbrev Partial := Except Fault (List Char)

def Partial.push (p : Partial) (c : Char) : Partial :=
  p.map (c :: ·)

def Partial.fail (p : Partial) (f : Fault) : Partial :=
  p.bind fun _ => .error f

def Partial.finish (p : Partial) : Except Fault String :=
  p.map fun cs => String.ofList cs.reverse

/-- A string from after its opening quote; `pair` holds the four digits of a leading surrogate already
joined with the escape that follows. -/
def readString (p : Partial) (joined : Bool) : List Char → Leaf String × List Char
  | [] => (⟨(p.fail .eof).finish, some .eof⟩, [])
  | '"' :: rest => (⟨p.finish, none⟩, rest)
  | '\\' :: [] => (⟨(p.fail .eof).finish, some .eof⟩, [])
  | '\\' :: 'u' :: a :: b :: c :: d :: rest =>
    match readHex4 [a, b, c, d] with
    | .error f => (⟨(p.fail f).finish, some f⟩, rest)
    | .ok (n, _) =>
      if joined then readString p false rest
      else if 0xDC00 ≤ n ∧ n ≤ 0xDFFF then readString (p.fail .malformed) false rest
      else if 0xD800 ≤ n ∧ n ≤ 0xDBFF then
        match readLowSurrogate n rest with
        | .ok ch => readString (p.push ch) true rest
        | .error f => readString (p.fail f) false rest
      else readString (p.push (Char.ofNat n)) false rest
  | '\\' :: 'u' :: few =>
    let f : Fault := if (String.ofList few).utf8ByteSize < 4 then .eof else .malformed
    (⟨(p.fail f).finish, some f⟩, [])
  | '\\' :: c :: rest =>
    match simpleEscape? c with
    | some ch => readString (p.push ch) false rest
    | none => (⟨(p.fail .malformed).finish, some .malformed⟩, rest)
  | c :: rest =>
    if c.toNat < 32 then (⟨(p.fail .malformed).finish, some .malformed⟩, rest)
    else readString (p.push c) false rest

/-- The digits of a significand while they stay below `2 ^ 64`, and how many were left over. -/
def takeSignificand (n : Nat) : List Char → Nat × Nat × Nat
  | [] => (n, 0, 0)
  | c :: cs =>
    let m := n * 10 + (Decimal.digit? c).getD 0
    if m < UInt64.size then
      let (s, taken, dropped) := takeSignificand m cs
      (s, taken + 1, dropped)
    else (n, 0, cs.length + 1)

/-- A number in pieces: the digits before and after the point, and the exponent if one is given. -/
structure NumberText where
  negative : Bool
  whole : List Char
  decimals : Option (List Char)
  exponent : Option (Bool × List Char)

/-- Whole digits that do not fit 64 bits only scale, decimals that do not fit are dropped. -/
def NumberText.value (t : NumberText) : Except Fault Number :=
  let (s, _, dropped) := takeSignificand 0 t.whole
  let real (significand : Nat) (exponent : Int) : Except Fault Number :=
    match Double.ofDecimal t.negative significand exponent with
    | some x => .ok (.real x)
    | none => .error .malformed
  match t.decimals, t.exponent with
  | none, none =>
    if dropped ≠ 0 then real s dropped
    else if !t.negative then .ok (.int s)
    else if s = 0 ∨ UInt64.size < 2 * s then real s 0
    else .ok (.int (-s))
  | decimals, exponent =>
    let (s, taken, _) := takeSignificand s (decimals.getD [])
    let e : Int :=
      match exponent with
      | none => 0
      | some (true, ds) => -(Decimal.ofDigits ds : Int)
      | some (false, ds) => Decimal.ofDigits ds
    real s ((dropped : Int) - taken + e)

/-- A number that stops short: skipping calls this malformed even at the end of the text. -/
def shortNumber (rest : List Char) : Leaf Number × List Char :=
  (⟨.error (.at rest), some .malformed⟩, rest)

def readExponent (t : NumberText) (cs : List Char) : Leaf Number × List Char :=
  let (negative, rest) :=
    match cs with
    | '+' :: rest => (false, rest)
    | '-' :: rest => (true, rest)
    | rest => (false, rest)
  let ds := rest.takeWhile Decimal.isDigit
  let rest := rest.dropWhile Decimal.isDigit
  if ds.isEmpty then shortNumber rest
  else (⟨{ t with exponent := some (negative, ds) }.value, none⟩, rest)

def readFraction (t : NumberText) (cs : List Char) : Leaf Number × List Char :=
  let ds := cs.takeWhile Decimal.isDigit
  let rest := cs.dropWhile Decimal.isDigit
  if ds.isEmpty then shortNumber rest
  else
    let t := { t with decimals := some ds }
    match rest with
    | 'e' :: rest => readExponent t rest
    | 'E' :: rest => readExponent t rest
    | rest => (⟨t.value, none⟩, rest)

/-- A number from after its sign; a leading zero stands alone. -/
def readNumber (negative : Bool) (cs : List Char) : Leaf Number × List Char :=
  let ds := cs.takeWhile Decimal.isDigit
  let rest := cs.dropWhile Decimal.isDigit
  let t : NumberText := ⟨negative, ds, none, none⟩
  if ds.isEmpty then shortNumber rest
  else if ds.head? = some '0' ∧ 1 < ds.length then (⟨.error .malformed, some .malformed⟩, rest)
  else
    match rest with
    | '.' :: rest => readFraction t rest
    | 'e' :: rest => readExponent t rest
    | 'E' :: rest => readExponent t rest
    | rest => (⟨t.value, none⟩, rest)

/-- The letters of a literal after its first one. -/
def readWord (v : Raw) : List Char → List Char → Raw × List Char
  | [], rest => (v, rest)
  | _ :: _, [] => (.word .eof, [])
  | l :: ls, c :: rest => if c = l then readWord v ls rest else (.word .malformed, rest)

mutual

/-- A value after blanks; `fuel` bounds the number of values and brackets met. -/
def readValue : Nat → List Char → Raw × List Char
  | 0, rest => (.absent .eof, rest)
  | fuel + 1, cs =>
    match skipBlanks cs with
    | [] => (.absent .eof, [])
    | c :: rest =>
      if c = 'n' then readWord .null ['u', 'l', 'l'] rest
      else if c = 't' then readWord (.bool true) ['r', 'u', 'e'] rest
      else if c = 'f' then readWord (.bool false) ['a', 'l', 's', 'e'] rest
      else if c = '-' then let (n, rest) := readNumber true rest; (.num n, rest)
      else if Decimal.isDigit c then let (n, rest) := readNumber false (c :: rest); (.num n, rest)
      else if c = '"' then let (s, rest) := readString (.ok []) false rest; (.str s, rest)
      else if c = '[' then
        match skipBlanks rest with
        | [] => (.arr (.broken .eof), [])
        | ']' :: rest => (.arr .closed, rest)
        | rest => let (items, rest) := readItems fuel rest; (.arr items, rest)
      else if c = '\x7b' then
        match skipBlanks rest with
        | '\x7d' :: rest => (.obj .closed, rest)
        | rest => let (members, rest) := readMembers fuel rest; (.obj members, rest)
      else (.absent .malformed, c :: rest)

def readItems : Nat → List Char → Items × List Char
  | 0, rest => (.broken .eof, rest)
  | fuel + 1, cs =>
    let (v, rest) := readValue fuel cs
    match skipBlanks rest with
    | [] => (.cons v (.broken .eof), [])
    | ']' :: rest => (.cons v .closed, rest)
    | ',' :: rest => let (items, rest) := readItems fuel rest; (.cons v items, rest)
    | rest => (.cons v (.broken .malformed), rest)

def readMembers : Nat → List Char → Members × List Char
  | 0, rest => (.broken .eof, rest)
  | fuel + 1, cs =>
    match skipBlanks cs with
    | '"' :: rest =>
      let (key, rest) := readString (.ok []) false rest
      match skipBlanks rest with
      | ':' :: rest =>
        let (v, rest) := readValue fuel rest
        match skipBlanks rest with
        | [] => (.cons key v (.broken .eof), [])
        | '\x7d' :: rest => (.cons key v .closed, rest)
        | ',' :: rest => let (members, rest) := readMembers fuel rest; (.cons key v members, rest)
        | rest => (.cons key v (.broken .malformed), rest)
      | rest => (.cons key (.absent (.at rest)) (.broken (.at rest)), rest)
    | rest => let (v, rest) := readValue fuel rest; (.stray v, rest)

end

def Raw.read (cs : List Char) : Raw × List Char :=
  readValue (2 * cs.length + 1) cs

mutual

/-- The first fault met when a value is passed over. -/
def Raw.skip : Raw → Except Fault Unit
  | .null => .ok ()
  | .bool _ => .ok ()
  | .word f => .error f
  | .num n => n.skipped.elim (.ok ()) .error
  | .str s => s.skipped.elim (.ok ()) .error
  | .arr items => items.skip
  | .obj members => members.skip
  | .absent f => .error f

def Items.skip : Items → Except Fault Unit
  | .closed => .ok ()
  | .broken f => .error f
  | .cons v rest => v.skip.bind fun _ => rest.skip

def Members.skip : Members → Except Fault Unit
  | .closed => .ok ()
  | .broken f => .error f
  | .stray (.absent f) => .error f
  | .stray _ => .error .malformed
  | .cons key v rest =>
    match key.skipped with
    | some f => .error f
    | none => v.skip.bind fun _ => rest.skip

end

end Workshare.Json
