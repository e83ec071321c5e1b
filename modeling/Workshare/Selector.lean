import Workshare.Abort
import Workshare.Notice
import Workshare.Roster
import Workshare.Work

namespace Workshare

/-- What a selector may look at. -/
structure Surroundings where
  self : NodeId
  members : Roster
  capacity : CapacityTable

namespace Surroundings

/-- The peers with a free worker in a pool, with their numbers of free workers. -/
def candidates (s : Surroundings) (long : Bool) : List (NodeId × UInt64) :=
  (s.members.peers s.self).filterMap fun n => do
    let free := (← s.capacity.get? n).ofPool long
    if 0 < free then some (n, free) else none

end Surroundings

inductive SelectorRule
  | firstAvailable
  | maxFreeWorkers
  | custom (listens : Bool) (choose : Surroundings → Work → Except Abort (Option NodeId))

namespace SelectorRule

/-- The later of two peers is better only if it has more free workers. -/
def better (best : Option (NodeId × UInt64)) (next : NodeId × UInt64) : Option (NodeId × UInt64) :=
  match best with
  | some b => if next.2 ≤ b.2 then some b else some next
  | none => some next

def first (s : Surroundings) (long : Bool) : Option NodeId :=
  (s.candidates long).head?.map (·.1)

def mostFree (s : Surroundings) (long : Bool) : Option NodeId :=
  ((s.candidates long).foldl better none).map (·.1)

def listens : SelectorRule → Bool
  | .firstAvailable => false
  | .maxFreeWorkers => false
  | .custom listens _ => listens

def select (rule : SelectorRule) (s : Surroundings) (work : Work) : Except Abort (Option NodeId) :=
  match rule with
  | .firstAvailable => .ok (first s work.longRunning)
  | .maxFreeWorkers => .ok (mostFree s work.longRunning)
  | .custom _ choose => choose s work

end SelectorRule

structure Selector where
  tag : Tag
  rule : SelectorRule

end Workshare
