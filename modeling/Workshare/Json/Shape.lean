import Workshare.Json.Raw

namespace Workshare.Json

inductive Scalar
  | text
  | checked (accepts : String → Bool)
  | flag
  | count

/-- A record is written as an object or as the list of its fields; a field with a default may be missing.
A choice is one of its cases by name, with a body unless the case is bare. -/
inductive Shape
  | scalar (s : Scalar)
  | optional (s : Scalar)
  | anything
  | list (item : Shape)
  | record (fields : List (String × Shape × Option Value))
  | choice (cases : List (String × Option Shape))

instance : Inhabited Shape := ⟨.anything⟩

abbrev Field := String × Shape × Option Value

def maxDepth : Nat := 127

def Number.toValue : Number → Value
  | .int n => .int n
  | .real x => .real x

/-- A value where another kind is wanted: a scalar is read to its end first. -/
def Raw.mismatch : Raw → Fault
  | .word f => f
  | .num n => match n.strict with | .error f => f | .ok _ => .data
  | .str s => match s.strict with | .error f => f | .ok _ => .data
  | .absent f => f
  | _ => .data

def Scalar.read (s : Scalar) (v : Raw) : Except Fault Value :=
  match s, v with
  | .text, .str t => t.strict.map .str
  | .checked accepts, .str t =>
    t.strict.bind fun t => if accepts t then .ok (.str t) else .error .data
  | .flag, .bool b => .ok (.bool b)
  | .count, .num n =>
    n.strict.bind fun n =>
      match n with
      | .int n => if 0 ≤ n then .ok (.int n) else .error .data
      | .real _ => .error .data
  | _, v => .error v.mismatch

mutual

/-- Any value, inside `depth` brackets; of equal keys the last counts. -/
def Raw.value (depth : Nat) : Raw → Except Fault Value
  | .null => .ok .null
  | .bool b => .ok (.bool b)
  | .word f => .error f
  | .num n => n.strict.map Number.toValue
  | .str s => s.strict.map .str
  | .arr items =>
    if depth < maxDepth then (items.values (depth + 1)).map .arr else .error .malformed
  | .obj members =>
    if depth < maxDepth then (members.values (depth + 1) []).map .obj else .error .malformed
  | .absent f => .error f

def Items.values (depth : Nat) : Items → Except Fault (List Value)
  | .closed => .ok []
  | .broken f => .error f
  | .cons v rest => do
    let v ← v.value depth
    let vs ← rest.values depth
    return v :: vs

def Members.values (depth : Nat) (got : List (String × Value)) : Members → Except Fault (List (String × Value))
  | .closed => .ok got
  | .broken f => .error f
  | .stray (.absent f) => .error f
  | .stray _ => .error .malformed
  | .cons key v rest => do
    let key ← key.strict
    let v ← v.value depth
    rest.values depth (Value.insertMember key v got)

end

/-- The end of a list of fields: anything but the bracket is malformed. -/
def Items.finish : Items → Except Fault Unit
  | .closed => .ok ()
  | .broken f => .error f
  | .cons _ _ => .error .malformed

/-- The end of a choice written as an object. -/
def Members.finish : Members → Except Fault Unit
  | .closed => .ok ()
  | .broken f => .error f
  | .stray _ => .error .malformed
  | .cons _ _ _ => .error .malformed

/-- Fields in the order of their declaration from what was read, with defaults for the rest. -/
def assemble (got : List (String × Value)) : List Field → Except Fault (List (String × Value))
  | [] => .ok []
  | (name, _, default) :: fields =>
    match (got.find? (·.1 = name)).map (·.2) <|> default with
    | some v => (assemble got fields).map ((name, v) :: ·)
    | none => .error .data

mutual

/-- Reads a tree inside `depth` brackets, to a value in normal form (members in the order of their declaration,
defaults filled in) or to the first fault in reading order. -/
def Shape.read (shape : Shape) (depth : Nat) : Raw → Except Fault Value
  | .null =>
    match shape with
    | .optional _ => .ok .null
    | .anything => .ok .null
    | .choice _ => .error .malformed
    | _ => .error .data
  | .arr items =>
    match shape with
    | .anything => (Raw.arr items).value depth
    | .list item =>
      if depth < maxDepth then (readList item (depth + 1) items).map .arr else .error .malformed
    | .record fields =>
      if depth < maxDepth then (readFieldList fields (depth + 1) items).map .obj else .error .malformed
    | .choice _ => .error .malformed
    | _ => .error .data
  | .obj members =>
    match shape with
    | .anything => (Raw.obj members).value depth
    | .record fields =>
      if depth < maxDepth then (readFields fields (depth + 1) [] members).map .obj else .error .malformed
    | .choice cases =>
      if depth < maxDepth then readCase cases (depth + 1) members else .error .malformed
    | _ => .error .data
  | .str s =>
    match shape with
    | .scalar k => k.read (.str s)
    | .optional k => k.read (.str s)
    | .anything => s.strict.map .str
    | .choice cases =>
      s.strict.bind fun name =>
        match cases.find? (·.1 = name) with
        | some (_, none) => .ok (.str name)
        | _ => .error .data
    | _ => .error (Raw.str s).mismatch
  | .absent f => .error f
  | v =>
    match shape with
    | .scalar k => k.read v
    | .optional k => k.read v
    | .anything => v.value depth
    | .choice _ => .error .malformed
    | _ => .error v.mismatch

def readList (item : Shape) (depth : Nat) : Items → Except Fault (List Value)
  | .closed => .ok []
  | .broken f => .error f
  | .cons v rest => do
    let v ← item.read depth v
    let vs ← readList item depth rest
    return v :: vs

def readFieldList (fields : List Field) (depth : Nat) : Items → Except Fault (List (String × Value))
  | .closed => assemble [] fields
  | .broken f => .error f
  | .cons v rest =>
    match fields with
    | [] => .error .malformed
    | (name, shape, _) :: fields => do
      let v ← shape.read depth v
      let vs ← readFieldList fields depth rest
      return (name, v) :: vs

/-- Members not among the fields are skipped; a field given twice is refused at its second name. -/
def readFields (fields : List Field) (depth : Nat) (got : List (String × Value)) :
    Members → Except Fault (List (String × Value))
  | .closed => assemble got fields
  | .broken f => .error f
  | .stray (.absent f) => .error f
  | .stray _ => .error .malformed
  | .cons key v rest => do
    let key ← key.strict
    match fields.find? (·.1 = key) with
    | none =>
      v.skip
      readFields fields depth got rest
    | some (_, shape, _) =>
      if got.any (·.1 = key) then .error .data
      else
        let v ← shape.read depth v
        readFields fields depth ((key, v) :: got) rest

def readCase (cases : List (String × Option Shape)) (depth : Nat) : Members → Except Fault Value
  | .closed => .error .malformed
  | .broken f => .error f
  | .stray v => .error v.mismatch
  | .cons key v rest => do
    let key ← key.strict
    match cases.find? (·.1 = key) with
    | none => .error .data
    | some (_, none) =>
      match v with
      | .null =>
        rest.finish
        return .str key
      | v => .error v.mismatch
    | some (_, some body) =>
      let v ← body.read depth v
      rest.finish
      return .obj [(key, v)]

end

/-- The value of a text that starts with one, whatever follows. -/
def Shape.readStart (shape : Shape) (text : String) : Except Fault Value :=
  shape.read 0 (Raw.read text.toList).1

def Shape.readText (shape : Shape) (text : String) : Except Fault Value := do
  let (v, rest) := Raw.read text.toList
  let v ← shape.read 0 v
  if (skipBlanks rest).isEmpty then return v else .error .malformed

def Value.read (text : String) : Except Fault Value :=
  Shape.anything.readText text

end Workshare.Json
