import Workshare.Text.Printable

namespace Workshare.Quoted

def hexDigit (n : Nat) : Char :=
  if n < 10 then Char.ofNat (48 + n) else Char.ofNat (87 + n)

/-- Lower-case hexadecimal without leading zeros. -/
def hex (n : Nat) : List Char :=
  if n < 16 then [hexDigit n] else hex (n / 16) ++ [hexDigit (n % 16)]

def escapeChar (c : Char) : List Char :=
  if c = '"' then ['\\', '"']
  else if c = '\\' then ['\\', '\\']
  else if c = '\n' then ['\\', 'n']
  else if c = '\r' then ['\\', 'r']
  else if c = '\t' then ['\\', 't']
  else if c.toNat = 0 then ['\\', '0']
  else if 32 ≤ c.toNat ∧ c.toNat < 127 then [c]
  else if Printable.isHidden c then ['\\', 'u', '\x7b'] ++ hex c.toNat ++ ['\x7d']
  else [c]

def quote (s : String) : String :=
  String.ofList ('"' :: s.toList.flatMap escapeChar ++ ['"'])

end Workshare.Quoted
