import Workshare.Abort
import Workshare.Capacity
import Workshare.Executor.Handler
import Workshare.Executor.Lane
import Workshare.Settings

namespace Workshare

structure Pool where
  short : Lane
  long : Lane
  startTimeout : Duration
  handlers : Registry

namespace Pool

/-- No lane can be larger. -/
def maxSize : Nat :=
  2305843009213693951

def tooLarge : Abort :=
  ⟨"a semaphore may not have more than MAX_PERMITS permits (" ++ toString maxSize ++ ")"⟩

def start (settings : PoolSettings) (handlers : Registry) : Except Abort Pool :=
  let short := settings.shortThreads.toNat
  let long := settings.longThreads.toNat
  if short ≤ maxSize && long ≤ maxSize then
    .ok ⟨.ofSize short, .ofSize long, settings.startTimeout, handlers⟩
  else .error tooLarge

def lane (p : Pool) (longRunning : Bool) : Lane :=
  if longRunning then p.long else p.short

def setLane (p : Pool) (longRunning : Bool) (l : Lane) : Pool :=
  if longRunning then { p with long := l } else { p with short := l }

def withLane {α : Type} (p : Pool) (longRunning : Bool) (f : Lane → Lane × α) : Pool × α :=
  let (l, a) := f (p.lane longRunning)
  (p.setLane longRunning l, a)

def free (p : Pool) : Free :=
  ⟨p.short.free.toUInt64, p.long.free.toUInt64⟩

/-- The reason given to a work that got no worker in time. -/
def noWorker (p : Pool) (longRunning : Bool) : String :=
  "no " ++ (if longRunning then "long-running" else "short-running") ++ " worker free within " ++
    p.startTimeout.text

end Pool

end Workshare
