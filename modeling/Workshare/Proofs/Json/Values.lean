import Mathlib.Algebra.Group.Int.Defs
import Workshare.Json.Shape
import Workshare.Proofs.Results

namespace Workshare.Json.Value

mutual

/-- Inside `depth` brackets: whole numbers have 64 bits, members are sorted by key, and no more than `maxDepth` brackets
are open at once. -/
def Normal (depth : Nat) : Value → Prop
  | .null => True
  | .bool _ => True
  | .int n => -2 ^ 63 ≤ n ∧ n < 2 ^ 64
  | .real _ => True
  | .str _ => True
  | .arr items => depth < maxDepth ∧ NormalItems (depth + 1) items
  | .obj members => depth < maxDepth ∧ members.Pairwise (·.1 < ·.1) ∧ NormalMembers (depth + 1) members

def NormalItems (depth : Nat) : List Value → Prop
  | [] => True
  | v :: rest => v.Normal depth ∧ NormalItems depth rest

def NormalMembers (depth : Nat) : List (String × Value) → Prop
  | [] => True
  | (_, v) :: rest => v.Normal depth ∧ NormalMembers depth rest

end

mutual

/-- Every double in a value is of a kind. -/
def Reals (p : Double → Prop) : Value → Prop
  | .null => True
  | .bool _ => True
  | .int _ => True
  | .real x => p x
  | .str _ => True
  | .arr items => RealsItems p items
  | .obj members => RealsMembers p members

def RealsItems (p : Double → Prop) : List Value → Prop
  | [] => True
  | v :: rest => v.Reals p ∧ RealsItems p rest

def RealsMembers (p : Double → Prop) : List (String × Value) → Prop
  | [] => True
  | (_, v) :: rest => v.Reals p ∧ RealsMembers p rest

end

/-- A value, its items and its members at once. -/
theorem induction {P : Value → Prop} {Q : List Value → Prop} {R : List (String × Value) → Prop}
    (null : P .null) (bool : ∀ b, P (.bool b)) (int : ∀ n, P (.int n)) (real : ∀ x, P (.real x)) (str : ∀ s, P (.str s))
    (arr : ∀ vs, Q vs → P (.arr vs)) (obj : ∀ ms, R ms → P (.obj ms))
    (noItems : Q []) (item : ∀ v vs, P v → Q vs → Q (v :: vs))
    (noMembers : R []) (member : ∀ k v ms, P v → R ms → R ((k, v) :: ms)) (v : Value) : P v :=
  @Value.rec P Q R (fun e => P e.2) null bool int real str arr obj noItems item noMembers
    (fun e ms he hms => member e.1 e.2 ms he hms) (fun _ _ h => h) v

theorem Reals.mono {p q : Double → Prop} (hpq : ∀ x, p x → q x) {v : Value} : v.Reals p → v.Reals q := by
  refine induction (P := fun v => v.Reals p → v.Reals q) (Q := fun vs => RealsItems p vs → RealsItems q vs)
    (R := fun ms => RealsMembers p ms → RealsMembers q ms) ?null ?bool ?int ?real ?str ?arr ?obj ?_ ?_ ?_ ?_ v
  case null => exact fun h => h
  case bool => exact fun _ h => h
  case int => exact fun _ h => h
  case real => exact hpq
  case str => exact fun _ h => h
  case arr => exact fun _ ih => ih
  case obj => exact fun _ ih => ih
  · exact fun h => h
  · exact fun _ _ ih ihs h => ⟨ih h.1, ihs h.2⟩
  · exact fun h => h
  · exact fun _ _ _ ih ihs h => ⟨ih h.1, ihs h.2⟩

/-- A value that may stand inside many brackets may stand inside fewer. -/
theorem Normal.mono {v : Value} : ∀ {a b : Nat}, a ≤ b → v.Normal b → v.Normal a := by
  refine induction (P := fun v => ∀ {a b}, a ≤ b → v.Normal b → v.Normal a)
    (Q := fun vs => ∀ {a b}, a ≤ b → NormalItems b vs → NormalItems a vs)
    (R := fun ms => ∀ {a b}, a ≤ b → NormalMembers b ms → NormalMembers a ms)
    ?null ?bool ?int ?real ?str ?arr ?obj ?_ ?_ ?_ ?_ v
  case null => exact fun _ h => h
  case bool => exact fun _ _ _ _ h => h
  case int => exact fun _ _ _ _ h => h
  case real => exact fun _ _ _ _ h => h
  case str => exact fun _ _ _ _ h => h
  case arr =>
    intro items ih a b hab h
    exact ⟨Nat.lt_of_le_of_lt hab h.1, ih (Nat.succ_le_succ hab) h.2⟩
  case obj =>
    intro members ih a b hab h
    exact ⟨Nat.lt_of_le_of_lt hab h.1, h.2.1, ih (Nat.succ_le_succ hab) h.2.2⟩
  · exact fun _ h => h
  · exact fun _ _ ih ihs _ _ hab h => ⟨ih hab h.1, ihs hab h.2⟩
  · exact fun _ h => h
  · exact fun _ _ _ ih ihs _ _ hab h => ⟨ih hab h.1, ihs hab h.2⟩

end Workshare.Json.Value

namespace Workshare.Json

theorem value_num {n : Leaf Number} {depth : Nat} {v : Value} (h : (Raw.num n).value depth = .ok v) :
    ∃ m, n.strict = .ok m ∧ m.toValue = v := by
  rw [Raw.value] at h
  exact Except.exists_of_map h

theorem value_str {s : Leaf String} {depth : Nat} {v : Value} (h : (Raw.str s).value depth = .ok v) :
    ∃ t, s.strict = .ok t ∧ .str t = v := by
  rw [Raw.value] at h
  exact Except.exists_of_map h

/-- An array is a value if there is room for its bracket and its items are values. -/
theorem value_arr {items : Items} {depth : Nat} {v : Value} (h : (Raw.arr items).value depth = .ok v) :
    depth < maxDepth ∧ ∃ vs, items.values (depth + 1) = .ok vs ∧ .arr vs = v := by
  rw [Raw.value] at h
  split at h
  next deep => exact ⟨deep, Except.exists_of_map h⟩
  next => cases h

theorem value_obj {members : Members} {depth : Nat} {v : Value} (h : (Raw.obj members).value depth = .ok v) :
    depth < maxDepth ∧ ∃ ms, members.values (depth + 1) [] = .ok ms ∧ .obj ms = v := by
  rw [Raw.value] at h
  split at h
  next deep => exact ⟨deep, Except.exists_of_map h⟩
  next => cases h

theorem values_cons {v : Raw} {rest : Items} {depth : Nat} {vs : List Value}
    (h : (Items.cons v rest).values depth = .ok vs) :
    ∃ w ws, v.value depth = .ok w ∧ rest.values depth = .ok ws ∧ w :: ws = vs := by
  rw [Items.values] at h
  obtain ⟨w, first, h⟩ := Except.exists_of_bind h
  obtain ⟨ws, others, h⟩ := Except.exists_of_bind h
  exact ⟨w, ws, first, others, Except.ok.inj h⟩

theorem values_member {key : Leaf String} {v : Raw} {rest : Members} {depth : Nat} {got out : List (String × Value)}
    (h : (Members.cons key v rest).values depth got = .ok out) :
    ∃ k w, v.value depth = .ok w ∧ rest.values depth (Value.insertMember k w got) = .ok out := by
  rw [Members.values] at h
  obtain ⟨k, _, h⟩ := Except.exists_of_bind h
  obtain ⟨w, value, h⟩ := Except.exists_of_bind h
  exact ⟨k, w, value, h⟩

end Workshare.Json
