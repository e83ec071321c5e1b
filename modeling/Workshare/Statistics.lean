import Workshare.Notice

namespace Workshare

/-- Each node alone writes its own tally and tells the others of every step; what it has heard from them it keeps
in `peers`. -/
structure Statistics where
  node : NodeId
  enabled : Bool
  own : Tally Nat
  peers : Table NodeId (Tally Nat)
  /-- Where the steps of the own tally are told. -/
  transport : Option Tag
  deriving DecidableEq

namespace Statistics

def start (node : NodeId) (enabled : Bool) : Statistics :=
  ⟨node, enabled, .zero, .empty, none⟩

def record (s : Statistics) (c : Counter) : Statistics :=
  { s with own := s.own.bump c }

/-- The transport that is told of a recorded step. -/
def replicatesTo (s : Statistics) : Option Tag :=
  if s.enabled then s.transport else none

/-- A step of a peer's tally; nobody else writes the own one. -/
def addDelta (s : Statistics) (origin : NodeId) (c : Counter) : Statistics :=
  if origin = s.node then s
  else { s with peers := s.peers.insert origin (((s.peers.get? origin).getD .zero).bump c) }

def forget (s : Statistics) (n : NodeId) : Statistics :=
  { s with peers := s.peers.erase n }

def hear (s : Statistics) : Notice → Statistics
  | .leave n => s.forget n
  | .delta origin c => s.addDelta origin c
  | .join _ => s
  | .free _ _ _ => s

/-- A notice never touches the own tally. -/
theorem hear_eq (s : Statistics) (notice : Notice) : s.hear notice = { s with peers := (s.hear notice).peers } := by
  cases notice <;> simp only [hear, forget, addDelta]
  split <;> rfl

theorem get?_addDelta (s : Statistics) (origin p : NodeId) (c : Counter) :
    (s.addDelta origin c).peers.get? p =
      if p = origin ∧ origin ≠ s.node then some (((s.peers.get? p).getD .zero).bump c)
      else s.peers.get? p := by
  unfold addDelta
  split
  next h => simp [h]
  next h =>
    rw [Table.get?_insert]
    by_cases hp : p = origin
    · subst hp; simp [h]
    · simp [hp]

theorem get?_forget (s : Statistics) (n p : NodeId) :
    (s.forget n).peers.get? p = if p = n then none else s.peers.get? p :=
  Table.get?_erase _ _ _

/-- Everybody's tally as known here. -/
def tallies (s : Statistics) : Table NodeId (Tally Nat) :=
  s.peers.insert s.node s.own

def get? (s : Statistics) (n : NodeId) : Option (Tally Nat) :=
  if n = s.node then some s.own else s.peers.get? n

/-- All nodes with a tally, in order; the own one is always among them. -/
def nodes (s : Statistics) : List NodeId :=
  s.tallies.keys

def aggregate (s : Statistics) : Tally Nat :=
  s.peers.entries.foldl (fun sum e => sum.add e.2) s.own

end Statistics

end Workshare
