namespace Workshare.Decimal

def digitChar (n : Nat) : Char :=
  Char.ofNat (48 + n)

def digits (n : Nat) : List Char :=
  if n < 10 then [digitChar n] else digits (n / 10) ++ [digitChar (n % 10)]

def text (n : Nat) : String :=
  String.ofList (digits n)

/-- Signed form: a minus sign stands before a negative number. -/
def signedDigits (n : Int) : List Char :=
  if n < 0 then '-' :: digits n.natAbs else digits n.natAbs

def digit? (c : Char) : Option Nat :=
  if 48 ≤ c.toNat ∧ c.toNat ≤ 57 then some (c.toNat - 48) else none

def isDigit (c : Char) : Bool :=
  (digit? c).isSome

/-- The number that a run of digits denotes; other characters count as zero. -/
def ofDigits (cs : List Char) : Nat :=
  cs.foldl (fun n c => n * 10 + (digit? c).getD 0) 0

inductive Fault
  | empty
  | invalidDigit
  | tooLarge
  deriving DecidableEq, Repr

def Fault.message : Fault → String
  | .empty => "cannot parse integer from empty string"
  | .invalidDigit => "invalid digit found in string"
  | .tooLarge => "number too large to fit in target type"

/-- Reads digits left to right below `bound`; the first problem on the way counts. -/
def readDigits (bound : Nat) (n : Nat) : List Char → Except Fault Nat
  | [] => .ok n
  | c :: cs =>
    match digit? c with
    | none => .error .invalidDigit
    | some d => if n * 10 + d < bound then readDigits bound (n * 10 + d) cs else .error .tooLarge

/-- An unsigned number below `bound`; one leading plus sign is allowed. -/
def read (bound : Nat) (s : String) : Except Fault Nat :=
  match s.toList with
  | [] => .error .empty
  | ['+'] => .error .invalidDigit
  | '+' :: cs => readDigits bound 0 cs
  | cs => readDigits bound 0 cs

end Workshare.Decimal
