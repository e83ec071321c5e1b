namespace Workshare

/-- A place in a queue, numbered by the task that waits. -/
abbrev Ticket := Nat

/-- Workers of one kind and the queue for them. A worker that comes back goes to whoever has waited longest; only
if nobody waits is it free again. -/
structure Lane where
  free : Nat
  /-- Who waits, the longest first. -/
  waiting : List Ticket
  /-- Who has been handed a worker and has not taken it up yet. -/
  granted : List Ticket
  deriving DecidableEq, Repr

namespace Lane

def ofSize (n : Nat) : Lane :=
  ⟨n, [], []⟩

/-- Takes a free worker, or queues up. -/
def ask (l : Lane) (t : Ticket) : Lane × Bool :=
  match l.free with
  | n + 1 => ({ l with free := n }, true)
  | 0 => ({ l with waiting := l.waiting ++ [t] }, false)

/-- Takes up a worker that was handed over. -/
def collect (l : Lane) (t : Ticket) : Lane × Bool :=
  if t ∈ l.granted then ({ l with granted := l.granted.erase t }, true) else (l, false)

/-- A worker comes back; the answer is who is handed it. -/
def giveBack (l : Lane) : Lane × Option Ticket :=
  match l.waiting with
  | t :: rest => ({ l with waiting := rest, granted := l.granted ++ [t] }, some t)
  | [] => ({ l with free := l.free + 1 }, none)

/-- Stops waiting; a worker that was handed over already goes on to the next. -/
def quit (l : Lane) (t : Ticket) : Lane × Option Ticket :=
  if t ∈ l.granted then { l with granted := l.granted.erase t }.giveBack
  else ({ l with waiting := l.waiting.erase t }, none)

/-- `n` workers come at once: to those who wait, and the rest are free. -/
def giveMany (l : Lane) (n : Nat) : Lane × List Ticket :=
  let next := l.waiting.take n
  (⟨l.free + (n - next.length), l.waiting.drop n, l.granted ++ next⟩, next)

end Lane

end Workshare
