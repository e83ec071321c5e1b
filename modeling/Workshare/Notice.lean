import Workshare.Capacity
import Workshare.Counter

namespace Workshare

inductive Notice
  | join (node : NodeId)
  | leave (node : NodeId)
  | free (node : NodeId) (long : Bool) (count : UInt64)
  | delta (origin : NodeId) (counter : Counter)
  deriving DecidableEq, Repr

namespace Notice

def node : Notice → NodeId
  | .join n => n
  | .leave n => n
  | .free n _ _ => n
  | .delta n _ => n

end Notice

/-- Names an instance of a strategy, transport or listener; equal tags name the same instance. -/
structure Tag where
  name : String
  number : Nat
  deriving DecidableEq, Repr

end Workshare
