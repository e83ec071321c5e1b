namespace Workshare.Utf8

/-- The one to four bytes of a scalar. -/
def encodeChar (c : Char) : List UInt8 :=
  let n := c.toNat
  if n < 0x80 then [n.toUInt8]
  else if n < 0x800 then [(0xC0 + n / 0x40).toUInt8, (0x80 + n % 0x40).toUInt8]
  else if n < 0x10000 then
    [(0xE0 + n / 0x1000).toUInt8, (0x80 + n / 0x40 % 0x40).toUInt8, (0x80 + n % 0x40).toUInt8]
  else
    [(0xF0 + n / 0x40000).toUInt8, (0x80 + n / 0x1000 % 0x40).toUInt8,
      (0x80 + n / 0x40 % 0x40).toUInt8, (0x80 + n % 0x40).toUInt8]

def encode (cs : List Char) : List UInt8 :=
  cs.flatMap encodeChar

/-- Where and how a byte string stops being UTF-8: a bad sequence has a length, one that the end of
the input cuts off has none. -/
structure Fault where
  index : Nat
  length : Option Nat
  deriving DecidableEq, Repr

def Fault.message (f : Fault) : String :=
  match f.length with
  | some n => "invalid utf-8 sequence of " ++ toString n ++ " bytes from index " ++ toString f.index
  | none => "incomplete utf-8 byte sequence from index " ++ toString f.index

/-- A lead byte fixes the width of its sequence and the range of the byte after it. -/
inductive Lead
  | single
  | multi (width lo hi : Nat)
  | bad
  deriving DecidableEq, Repr

def lead (b : Nat) : Lead :=
  if b < 0x80 then .single
  else if b < 0xC2 then .bad
  else if b < 0xE0 then .multi 2 0x80 0xBF
  else if b = 0xE0 then .multi 3 0xA0 0xBF
  else if b = 0xED then .multi 3 0x80 0x9F
  else if b < 0xF0 then .multi 3 0x80 0xBF
  else if b = 0xF0 then .multi 4 0x90 0xBF
  else if b < 0xF4 then .multi 4 0x80 0xBF
  else if b = 0xF4 then .multi 4 0x80 0x8F
  else .bad

def isContinuation (b : UInt8) : Bool :=
  0x80 ≤ b.toNat && b.toNat ≤ 0xBF

/-- Reads bytes that start at index `i` of the whole input. -/
def decodeFrom (i : Nat) : List UInt8 → Except Fault (List Char)
  | [] => .ok []
  | b :: bs =>
    match lead b.toNat with
    | .bad => .error ⟨i, some 1⟩
    | .single => (decodeFrom (i + 1) bs).map (Char.ofNat b.toNat :: ·)
    | .multi width lo hi =>
      match bs with
      | [] => .error ⟨i, none⟩
      | b₁ :: bs₁ =>
        if b₁.toNat < lo ∨ hi < b₁.toNat then .error ⟨i, some 1⟩
        else if width = 2 then
          (decodeFrom (i + 2) bs₁).map (Char.ofNat ((b.toNat - 0xC0) * 0x40 + (b₁.toNat - 0x80)) :: ·)
        else
          match bs₁ with
          | [] => .error ⟨i, none⟩
          | b₂ :: bs₂ =>
            if !isContinuation b₂ then .error ⟨i, some 2⟩
            else if width = 3 then
              (decodeFrom (i + 3) bs₂).map (Char.ofNat
                ((b.toNat - 0xE0) * 0x1000 + (b₁.toNat - 0x80) * 0x40 + (b₂.toNat - 0x80)) :: ·)
            else
              match bs₂ with
              | [] => .error ⟨i, none⟩
              | b₃ :: bs₃ =>
                if !isContinuation b₃ then .error ⟨i, some 3⟩
                else
                  (decodeFrom (i + 4) bs₃).map (Char.ofNat
                    ((b.toNat - 0xF0) * 0x40000 + (b₁.toNat - 0x80) * 0x1000 +
                      (b₂.toNat - 0x80) * 0x40 + (b₃.toNat - 0x80)) :: ·)

def decode (bs : List UInt8) : Except Fault (List Char) :=
  decodeFrom 0 bs

end Workshare.Utf8
