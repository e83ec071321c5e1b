import Workshare.Cluster.Operations
import Workshare.CommandLine

namespace Workshare

def PolicyChoice.rule (self : NodeId) : PolicyChoice → PolicyRule
  | .always => .always
  | .never => .never
  | .waterMark level => .waterMark (.start self level)

def SelectorChoice.rule : SelectorChoice → SelectorRule
  | .firstAvailable => .firstAvailable
  | .maxFreeWorkers => .maxFreeWorkers

namespace Host

/-- A transport and an executor that no manager uses. -/
def bare (id : NodeId) (timeout : Duration) (executor : Executor) : Host :=
  ⟨executor, none, .start id, timeout⟩

/-- The transport is attached already, and not a listener. -/
def managed (id : NodeId) (settings : ManagerSettings) (transport : Tag) (executor : Executor) : Host :=
  let m := (Manager.start id settings executor.free).setTransport transport false
  ⟨executor, some m.drain.2, .start id, settings.requestTimeout⟩

/-- Lets the manager take over its strategies. -/
def withStrategies (h : Host) (p : Policy) (s : Selector) : Host :=
  { h with manager := h.manager.map fun m => (m.setPolicy p |>.setSelector s).drain.2 }

end Host

/-- A node is named by the address that it is bound to. -/
def NodeSettings.id (s : NodeSettings) : NodeId :=
  ⟨s.bind.text⟩

def NodeSettings.host (s : NodeSettings) : Except Abort Host := do
  let _ ← s.rpcAddr
  let pool ← Pool.start s.pool .builtin
  let _ ← s.httpAddr
  let host := Host.managed s.id s.manager ⟨"transport", 2⟩ (.pool pool)
  return host.withStrategies ⟨⟨"policy", 0⟩, s.policy.rule s.id⟩ ⟨⟨"selector", 1⟩, s.selector.rule⟩

def NodeSettings.cluster (s : NodeSettings) : Except Abort Cluster :=
  s.host.map fun h => (Cluster.start [(s.id, h)]).startNode s.id

end Workshare
