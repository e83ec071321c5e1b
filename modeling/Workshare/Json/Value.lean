import Workshare.Double
import Workshare.Text.Quoted

namespace Workshare.Json

/-- Reading keeps `int` between `-2 ^ 63` and `2 ^ 64 - 1`; every other number is a double. -/
inductive Value
  | null
  | bool (b : Bool)
  | int (n : Int)
  | real (x : Double)
  | str (s : String)
  | arr (items : List Value)
  | obj (members : List (String × Value))
  deriving Inhabited, Repr, BEq

def escapeChar (c : Char) : List Char :=
  if c = '"' then ['\\', '"']
  else if c = '\\' then ['\\', '\\']
  else if c = '\n' then ['\\', 'n']
  else if c = '\r' then ['\\', 'r']
  else if c = '\t' then ['\\', 't']
  else if c.toNat = 8 then ['\\', 'b']
  else if c.toNat = 12 then ['\\', 'f']
  else if c.toNat < 32 then
    ['\\', 'u', '0', '0', Quoted.hexDigit (c.toNat / 16), Quoted.hexDigit (c.toNat % 16)]
  else [c]

def quote (s : String) : List Char :=
  '"' :: s.toList.flatMap escapeChar ++ ['"']

namespace Value

mutual

/-- Compact text without blanks. -/
def print : Value → List Char
  | .null => ['n', 'u', 'l', 'l']
  | .bool true => ['t', 'r', 'u', 'e']
  | .bool false => ['f', 'a', 'l', 's', 'e']
  | .int n => Decimal.signedDigits n
  | .real x => x.text
  | .str s => quote s
  | .arr items => '[' :: printItems items ++ [']']
  | .obj members => '\x7b' :: printMembers members ++ ['\x7d']

def printItems : List Value → List Char
  | [] => []
  | [v] => print v
  | v :: w :: rest => print v ++ ',' :: printItems (w :: rest)

def printMembers : List (String × Value) → List Char
  | [] => []
  | [(k, v)] => quote k ++ ':' :: print v
  | (k, v) :: m :: rest => quote k ++ ':' :: print v ++ ',' :: printMembers (m :: rest)

end

def text (v : Value) : String :=
  String.ofList v.print

/-- Puts a member into its place by key, replacing one with the same key. -/
def insertMember (k : String) (v : Value) : List (String × Value) → List (String × Value)
  | [] => [(k, v)]
  | (k', v') :: rest =>
    if k < k' then (k, v) :: (k', v') :: rest
    else if k = k' then (k, v) :: rest
    else (k', v') :: insertMember k v rest

def member? (name : String) : Value → Option Value
  | .obj members => (members.find? (·.1 = name)).map (·.2)
  | _ => none

end Value

end Workshare.Json
