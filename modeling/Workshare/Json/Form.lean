import Workshare.Json.Shape

namespace Workshare.Json

/-- How a type of the program appears in JSON: the shape of its documents, and the two ways between its values and
documents in normal form. -/
structure Form (α : Type) where
  shape : Shape
  toValue : α → Value
  ofValue? : Value → Option α

namespace Form

variable {α β : Type}

/-- A document of the right shape always stands for a value. -/
def ofDocument (f : Form α) (v : Value) : Except Fault α :=
  (f.ofValue? v).elim (.error .data) .ok

def read (f : Form α) (text : String) : Except Fault α :=
  (f.shape.readText text).bind f.ofDocument

/-- Reads the value a text starts with, whatever follows. -/
def readStart (f : Form α) (text : String) : Except Fault α :=
  (f.shape.readStart text).bind f.ofDocument

def print (f : Form α) (a : α) : String :=
  (f.toValue a).text

def imap (forth : α → β) (back : β → α) (f : Form α) : Form β where
  shape := f.shape
  toValue b := f.toValue (back b)
  ofValue? v := (f.ofValue? v).map forth

def text : Form String where
  shape := .scalar .text
  toValue := .str
  ofValue?
    | .str s => some s
    | _ => none

def flag : Form Bool where
  shape := .scalar .flag
  toValue := .bool
  ofValue?
    | .bool b => some b
    | _ => none

def count : Form UInt64 where
  shape := .scalar .count
  toValue n := .int n.toNat
  ofValue?
    | .int n => some n.toNat.toUInt64
    | _ => none

def anything : Form Value where
  shape := .anything
  toValue := id
  ofValue? := some

def list (f : Form α) : Form (List α) where
  shape := .list f.shape
  toValue as := .arr (as.map f.toValue)
  ofValue?
    | .arr vs => vs.mapM f.ofValue?
    | _ => none

def field (f : Form α) (name : String) : Field :=
  (name, f.shape, none)

/-- A field that stands for the given value when it is missing. -/
def fieldOr (f : Form α) (name : String) (default : α) : Field :=
  (name, f.shape, some (f.toValue default))

def get? (f : Form α) (v : Value) (name : String) : Option α :=
  (v.member? name).bind f.ofValue?

def optionalField (s : Scalar) (name : String) : Field :=
  (name, .optional s, some .null)

/-- An optional field of a record in normal form: `some none` when it is null or missing. -/
def getOptional? (f : Form α) (v : Value) (name : String) : Option (Option α) :=
  match v.member? name with
  | none => some none
  | some .null => some none
  | some v => (f.ofValue? v).map some

/-- The member of an optional field; an absent one is left out. -/
def optionalMember (f : Form α) (name : String) (a : Option α) : List (String × Value) :=
  (a.map fun a => (name, f.toValue a)).toList

end Form

end Workshare.Json
