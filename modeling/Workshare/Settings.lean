import Workshare.Duration

namespace Workshare

structure ManagerSettings where
  statisticsEnabled : Bool
  requestTimeout : Duration
  deriving DecidableEq, Repr

/-- Replicated statistics and ten seconds. -/
def ManagerSettings.default : ManagerSettings :=
  ⟨true, .ofMillis 10000⟩

structure PoolSettings where
  shortThreads : UInt64
  longThreads : UInt64
  startTimeout : Duration
  deriving DecidableEq, Repr

def PoolSettings.default : PoolSettings :=
  ⟨8, 4, .ofMillis 1000⟩

inductive PolicyChoice
  | always
  | never
  | waterMark (level : UInt64)
  deriving DecidableEq, Repr

inductive SelectorChoice
  | firstAvailable
  | maxFreeWorkers
  deriving DecidableEq, Repr

end Workshare
