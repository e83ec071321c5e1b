import Workshare.NodeId

namespace Workshare

structure Roster where
  table : Table NodeId Unit
  deriving DecidableEq, Repr

namespace Roster

def empty : Roster := ⟨.empty⟩

def contains (r : Roster) (n : NodeId) : Bool :=
  r.table.contains n

def insert (r : Roster) (n : NodeId) : Roster :=
  ⟨r.table.insert n ()⟩

def erase (r : Roster) (n : NodeId) : Roster :=
  ⟨r.table.erase n⟩

def members (r : Roster) : List NodeId :=
  r.table.keys

def peers (r : Roster) (self : NodeId) : List NodeId :=
  r.members.filter (· ≠ self)

@[simp] theorem contains_insert (r : Roster) (n p : NodeId) :
    (r.insert n).contains p = (decide (p = n) || r.contains p) :=
  Table.contains_insert _ _ _ _

@[simp] theorem contains_erase (r : Roster) (n p : NodeId) :
    (r.erase n).contains p = (!decide (p = n) && r.contains p) :=
  Table.contains_erase _ _ _

@[simp] theorem contains_empty (n : NodeId) : empty.contains n = false := rfl

theorem mem_members {r : Roster} {n : NodeId} : n ∈ r.members ↔ r.contains n :=
  Table.mem_keys_iff

theorem mem_peers {r : Roster} {self n : NodeId} : n ∈ r.peers self ↔ r.contains n ∧ n ≠ self := by
  simp [peers, mem_members]

def size (r : Roster) : Nat :=
  r.table.size

def isEmpty (r : Roster) : Bool :=
  r.table.isEmpty

end Roster

end Workshare
