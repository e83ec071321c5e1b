import Workshare.NodeId

namespace Workshare

structure Free where
  short : UInt64
  long : UInt64
  deriving DecidableEq, Repr, Inhabited

namespace Free

def none : Free := ⟨0, 0⟩

def ofPool (f : Free) (long : Bool) : UInt64 :=
  if long then f.long else f.short

def setPool (f : Free) (long : Bool) (n : UInt64) : Free :=
  if long then { f with long := n } else { f with short := n }

@[simp] theorem ofPool_setPool (f : Free) (long : Bool) (n : UInt64) :
    (f.setPool long n).ofPool long = n := by
  cases long <;> rfl

@[simp] theorem ofPool_setPool_not (f : Free) (long : Bool) (n : UInt64) :
    (f.setPool long n).ofPool (!long) = f.ofPool (!long) := by
  cases long <;> rfl

end Free

structure CapacityEntry where
  node : NodeId
  free : Free
  deriving DecidableEq, Repr

/-- Free workers by node. A node is entered by its first update or by `register`, which leaves an entry alone that
is already there. -/
structure CapacityTable where
  table : Table NodeId Free
  deriving DecidableEq, Repr

namespace CapacityTable

def empty : CapacityTable := ⟨.empty⟩

def get? (t : CapacityTable) (n : NodeId) : Option Free :=
  t.table.get? n

def register (t : CapacityTable) (n : NodeId) : CapacityTable :=
  if t.table.contains n then t else ⟨t.table.insert n .none⟩

def update (t : CapacityTable) (n : NodeId) (free : Free) : CapacityTable :=
  ⟨t.table.insert n free⟩

/-- Sets the free count of one pool and leaves the other. -/
def updatePool (t : CapacityTable) (n : NodeId) (long : Bool) (free : UInt64) : CapacityTable :=
  ⟨t.table.insert n (((t.get? n).getD .none).setPool long free)⟩

def remove (t : CapacityTable) (n : NodeId) : CapacityTable :=
  ⟨t.table.erase n⟩

theorem get?_register (t : CapacityTable) (n p : NodeId) :
    (t.register n).get? p = if p = n then some ((t.get? p).getD .none) else t.get? p := by
  unfold register
  split
  next h =>
    obtain ⟨f, hf⟩ := Option.isSome_iff_exists.mp h
    split
    next e => subst e; simp [get?, hf]
    next => rfl
  next h =>
    have hn : t.table.get? n = none := by simpa [Table.contains] using h
    simp only [get?, Table.get?_insert]
    split
    next e => subst e; simp [hn]
    next => rfl

theorem get?_update (t : CapacityTable) (n p : NodeId) (free : Free) :
    (t.update n free).get? p = if p = n then some free else t.get? p :=
  Table.get?_insert _ _ _ _

theorem get?_updatePool (t : CapacityTable) (n p : NodeId) (long : Bool) (free : UInt64) :
    (t.updatePool n long free).get? p =
      if p = n then some (((t.get? n).getD .none).setPool long free) else t.get? p :=
  Table.get?_insert _ _ _ _

theorem get?_remove (t : CapacityTable) (n p : NodeId) :
    (t.remove n).get? p = if p = n then none else t.get? p :=
  Table.get?_erase _ _ _

@[simp] theorem get?_empty (n : NodeId) : empty.get? n = none := rfl

def entries (t : CapacityTable) : List CapacityEntry :=
  t.table.entries.map fun (n, free) => ⟨n, free⟩

def nodes (t : CapacityTable) : List NodeId :=
  t.table.keys

def size (t : CapacityTable) : Nat :=
  t.table.size

def isEmpty (t : CapacityTable) : Bool :=
  t.table.isEmpty

end CapacityTable

end Workshare
