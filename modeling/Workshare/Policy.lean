import Workshare.Abort
import Workshare.Notice
import Workshare.Work

namespace Workshare

/-- The free workers of one node as heard so far; before that they count as more than any level. -/
structure WaterMark where
  node : NodeId
  level : UInt64
  free : Free
  deriving DecidableEq, Repr

namespace WaterMark

def start (node : NodeId) (level : UInt64) : WaterMark :=
  ⟨node, level, ⟨0xFFFFFFFFFFFFFFFF, 0xFFFFFFFFFFFFFFFF⟩⟩

def hear (w : WaterMark) : Notice → WaterMark
  | .free n long count => if n = w.node then { w with free := w.free.setPool long count } else w
  | .join _ => w
  | .leave _ => w
  | .delta _ _ => w

/-- Works of a pool leave the node once its free workers have sunk to the level. -/
def distributes (w : WaterMark) (work : Work) : Bool :=
  w.free.ofPool work.longRunning ≤ w.level

end WaterMark

inductive PolicyRule
  | always
  | never
  | waterMark (mark : WaterMark)
  | custom (listens : Bool) (answer : Work → Except Abort Bool)

namespace PolicyRule

def listens : PolicyRule → Bool
  | .always => false
  | .never => false
  | .waterMark _ => true
  | .custom listens _ => listens

def distributes : PolicyRule → Work → Except Abort Bool
  | .always, _ => .ok true
  | .never, _ => .ok false
  | .waterMark mark, work => .ok (mark.distributes work)
  | .custom _ answer, work => answer work

end PolicyRule

structure Policy where
  tag : Tag
  rule : PolicyRule

end Workshare
