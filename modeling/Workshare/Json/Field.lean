import Workshare.Json.Value

namespace Workshare.Json.Value

def asText : Value → String
  | .str s => s
  | _ => ""

def asNat : Value → Nat
  | .int n => n.toNat
  | _ => 0

def asWord (v : Value) : UInt64 :=
  v.asNat.toUInt64

def asFlag : Value → Bool
  | .bool b => b
  | _ => false

def asItems : Value → List Value
  | .arr vs => vs
  | _ => []

def field (v : Value) (name : String) : Value :=
  (v.member? name).getD .null

def textAt (v : Value) (name : String) : String := (v.field name).asText
def natAt (v : Value) (name : String) : Nat := (v.field name).asNat
def wordAt (v : Value) (name : String) : UInt64 := (v.field name).asWord
def flagAt (v : Value) (name : String) : Bool := (v.field name).asFlag
def itemsAt (v : Value) (name : String) : List Value := (v.field name).asItems

def natOr (v : Value) (name : String) (default : Nat) : Nat :=
  match v.member? name with
  | some (.int n) => n.toNat
  | _ => default

def textOr (v : Value) (name : String) (default : String) : String :=
  match v.member? name with
  | some (.str s) => s
  | _ => default

def flagOr (v : Value) (name : String) (default : Bool) : Bool :=
  match v.member? name with
  | some (.bool b) => b
  | _ => default

end Workshare.Json.Value
