import Workshare.Cluster.Operations
import Workshare.Proofs.Cluster.Staff

namespace Workshare

/-- How a behaviour ends. -/
def Behaviour.verdict : Behaviour → Verdict
  | .ends verdict => verdict
  | .sleeps _ next => next.verdict
  | .waits next => next.verdict

/-- How a work ends with these handlers. -/
def Registry.verdict (g : Registry) (work : Work) : Verdict :=
  match g.get? work.handler with
  | some h => (h.act work).verdict
  | none => Registry.unknown work.handler

/-- What the caller of a work is told who waits for its end. -/
def Verdict.outcome : Verdict → Outcome
  | .ok () => .ok none
  | .error fault => .error (.failed fault.message)

def Event.isEffect : Event → Bool
  | .effect _ _ => true
  | _ => false

/-- What happens at a node that knows no peers: works are handed to its pool, tasks go on, the clock moves, and
signals and handlers come from outside. -/
inductive Chore
  | submit (mode : Mode) (work : Work)
  | go (t : Ticket)
  | clock (now : Nat) (timers : List Timer)
  | queue (ready : List Ticket) (front : Option Ticket) (called : Bool)
  | release (count : Nat)
  | register (name : String) (handler : Handler)

def Chore.doer : Chore → Option Ticket
  | .go t => some t
  | _ => none

def Chore.order? : Chore → Option (Mode × Work)
  | .submit mode work => some (mode, work)
  | _ => none

namespace Cluster

def lane (c : Cluster) (n : NodeId) (long : Bool) : Lane :=
  match c.executor? n with
  | some (.pool p) => p.lane long
  | _ => .ofSize 0

def tend (c : Cluster) (n : NodeId) : Chore → Cluster
  | .submit mode work => (c.spawn (.submit n mode work false)).1
  | .go t => c.poll t
  | .clock now timers => { c with now := now, timers := timers }
  | .queue ready front called => { c with ready := ready, front := front, called := called }
  | .release count => c.release count
  | .register name handler => c.register n name handler

/-- How the work ends whose handler a task is about to look up. -/
def looksUp? (c : Cluster) (t : Ticket) : Option Verdict :=
  match c.tasks.get? t with
  | some (.handler n work _ .fresh) => some ((c.handlers n).verdict work)
  | _ => none

end Cluster

/-- A node on its own, with what has been seen of it: who was given which work, what happened while a task went
on, and which task began which. -/
structure Workshop where
  cluster : Cluster
  orders : Table Ticket (Mode × Work)
  /-- With the instant and the task that was going on. -/
  log : List (Nat × Option Ticket × Event)
  /-- When a task first went on. -/
  asked : Ticket → Option Nat
  /-- Who began a task. -/
  parent : Ticket → Option Ticket
  /-- How the work ends whose handler a task has looked up. -/
  due : Ticket → Option Verdict

namespace Workshop

def start (n : NodeId) (host : Host) : Workshop :=
  ⟨.start [(n, host)], .empty, [], fun _ => none, fun _ => none, fun _ => none⟩

def take (n : NodeId) (w : Workshop) (x : Chore) : Workshop where
  cluster := w.cluster.tend n x
  orders :=
    match x.order? with
    | some o => w.orders.insert w.cluster.fresh o
    | none => w.orders
  log := w.log ++ ((w.cluster.tend n x).events.drop w.cluster.events.length).map (w.cluster.now, x.doer, ·)
  asked v :=
    if x.doer = some v ∧ w.asked v = none ∧ w.cluster.tasks.contains v then some w.cluster.now else w.asked v
  parent v := if w.cluster.fresh ≤ v ∧ v < (w.cluster.tend n x).fresh then x.doer else w.parent v
  due v := if x.doer = some v then (w.cluster.looksUp? v).or (w.due v) else w.due v

def run (n : NodeId) (w : Workshop) (chores : List Chore) : Workshop :=
  chores.foldl (take n) w

def task (w : Workshop) (t : Ticket) : Option Task :=
  w.cluster.tasks.get? t

/-- What happened of the works while a task went on, and when. -/
def heard (w : Workshop) (t : Ticket) : List (Nat × Event) :=
  (w.log.filter fun e => e.2.1 = some t ∧ ¬ e.2.2.isEffect).map fun e => (e.1, e.2.2)

/-- The verdict that a task has left for the one that waits for it. -/
def posted (w : Workshop) (t : Ticket) : Option Verdict :=
  w.cluster.verdicts.get? t

/-- This task has begun none. -/
def Alone (w : Workshop) (t : Ticket) : Prop :=
  ∀ v, w.parent v ≠ some t

/-- This task has begun that one, and no other. -/
def Began (w : Workshop) (t u : Ticket) : Prop :=
  ∀ v, w.parent v = some t ↔ v = u

/-- A task of a work: the one that was asked, the one that it began, or the one that this one began. -/
def Of (w : Workshop) (t v : Ticket) : Prop :=
  v = t ∨ w.parent v = some t ∨ ∃ r, w.parent v = some r ∧ w.parent r = some t

/-- The work of this order holds a worker of a lane: it was handed one, or the task that it began is still there. -/
def holds (w : Workshop) (n : NodeId) (long : Bool) (t : Ticket) : Bool :=
  match w.orders.get? t with
  | some (_, work) =>
    work.longRunning = long ∧
      (t ∈ (w.cluster.lane n long).granted ∨ w.cluster.tasks.keys.any fun r => w.parent r = some t)
  | none => false

def holders (w : Workshop) (n : NodeId) (long : Bool) : Finset Ticket :=
  (Finset.range w.cluster.fresh).filter (w.holds n long ·)

end Workshop

end Workshare
