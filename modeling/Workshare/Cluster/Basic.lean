import Workshare.Cluster.Task
import Workshare.Executor.Pool
import Workshare.Executor.Script
import Workshare.Net.OneWay
import Workshare.Net.Loopback

namespace Workshare

inductive Executor
  | script (script : Script)
  | pool (pool : Pool)

def Executor.free : Executor → Free
  | .script s => s.free
  | .pool p => p.free

/-- One node; without a manager it is only a transport or only an executor. -/
structure Host where
  executor : Executor
  manager : Option Manager
  book : AddressBook String
  timeout : Duration

inductive Alarm
  | limit
  | stage
  deriving DecidableEq, Repr

structure Timer where
  due : Nat
  task : Ticket
  alarm : Alarm
  deriving DecidableEq, Repr

/-- What can be seen of a cluster from outside; `answered` is what an executor says about a work that it got, and
`dropped` is a work that goes on when nobody waits for its end any more. -/
inductive Event
  | effect (host : NodeId) (effect : Effect)
  | answered (host : NodeId) (mode : Mode) (outcome : Outcome)
  | ran (host : NodeId) (title : String) (work : Work)
  | completed (host : NodeId) (work : Work) (success : Bool)
  | dropped (host : NodeId) (work : Work)

/-- Hosts on one network, in virtual time: instants are milliseconds since the start. Tasks that can go on stand
in `ready`, in the order in which they were woken; time stands still until it is empty. The task that the outside
waits for, if there is one, does not queue up with them. -/
structure Cluster where
  now : Nat
  hosts : Table NodeId Host
  net : Loopback
  tasks : Table Ticket Task
  fresh : Ticket
  ready : List Ticket
  /-- The task that the outside waits for, and whether it can go on. -/
  front : Option Ticket
  called : Bool
  /-- In the order in which they were set. -/
  timers : List Timer
  /-- Signals for handlers that wait for one. -/
  gate : Lane
  verdicts : Table Ticket Verdict
  answers : List (Ticket × Answer)
  events : List Event

namespace Cluster

def start (hosts : List (NodeId × Host)) : Cluster where
  now := 0
  hosts := .ofList hosts
  net := .empty
  tasks := .empty
  fresh := 0
  ready := []
  front := none
  called := false
  timers := []
  gate := .ofSize 0
  verdicts := .empty
  answers := []
  events := []

def wake (c : Cluster) (t : Ticket) : Cluster :=
  if c.front = some t then { c with called := true }
  else if t ∈ c.ready then c
  else { c with ready := c.ready ++ [t] }

def wakeAll (c : Cluster) (ts : List Ticket) : Cluster :=
  ts.foldl wake c

theorem wakeAll_eq (c : Cluster) (ts : List Ticket) :
    ∃ ready called, c.wakeAll ts = { c with ready := ready, called := called } := by
  have one (c : Cluster) (t : Ticket) : ∃ ready called, c.wake t = { c with ready := ready, called := called } := by
    unfold wake
    split
    next => exact ⟨_, _, rfl⟩
    next =>
      split
      next => exact ⟨_, _, rfl⟩
      next => exact ⟨_, _, rfl⟩
  induction ts generalizing c with
  | nil => exact ⟨_, _, rfl⟩
  | cons t ts ih =>
    obtain ⟨_, _, first⟩ := one c t
    obtain ⟨ready, called, rest⟩ := ih (c.wake t)
    refine ⟨ready, called, ?_⟩
    show (c.wake t).wakeAll ts = _
    rw [rest, first]

def spawn (c : Cluster) (task : Task) : Cluster × Ticket :=
  ({ c with tasks := c.tasks.insert c.fresh task, fresh := c.fresh + 1, ready := c.ready ++ [c.fresh] },
    c.fresh)

/-- What a task will do when it is woken. -/
def park (c : Cluster) (t : Ticket) (task : Task) : Cluster :=
  { c with tasks := c.tasks.insert t task }

def setTimer (c : Cluster) (t : Ticket) (alarm : Alarm) (due : Nat) : Cluster :=
  { c with timers := c.timers ++ [⟨due, t, alarm⟩] }

def cancel (c : Cluster) (t : Ticket) (alarm : Alarm) : Cluster :=
  { c with timers := c.timers.filter fun x => x.task ≠ t || x.alarm ≠ alarm }

def finish (c : Cluster) (t : Ticket) (answer : Option Answer) : Cluster :=
  { c with
    tasks := c.tasks.erase t
    timers := c.timers.filter (·.task ≠ t)
    answers := c.answers ++ (answer.map (t, ·)).toList }

def record (c : Cluster) (e : Event) : Cluster :=
  { c with events := c.events ++ [e] }

def host? (c : Cluster) (n : NodeId) : Option Host :=
  c.hosts.get? n

def setHost (c : Cluster) (n : NodeId) (h : Host) : Cluster :=
  { c with hosts := c.hosts.insert n h }

def executor? (c : Cluster) (n : NodeId) : Option Executor :=
  (c.host? n).map (·.executor)

def manager? (c : Cluster) (n : NodeId) : Option Manager :=
  (c.host? n).bind (·.manager)

def free (c : Cluster) (n : NodeId) : Free :=
  ((c.executor? n).map (·.free)).getD .none

/-- Sends a request to everybody that a host knows, by a task of its own. -/
def broadcast (c : Cluster) (n : NodeId) (request : Request String) : Cluster :=
  match c.host? n with
  | none => c
  | some h =>
    let targets := h.book.peerAddresses
    if targets.isEmpty then c
    else
      let (op, body) := request.encode .string
      (c.spawn (.broadcast n targets op body)).1

/-- A broadcast begins one task, unless there is nobody to reach. -/
theorem broadcast_cases (c : Cluster) (n : NodeId) (r : Request String) :
    c.broadcast n r = c ∨
      ∃ targets, c.broadcast n r = (c.spawn (.broadcast n targets (r.encode .string).1 (r.encode .string).2)).1 := by
  unfold broadcast
  split
  next => exact .inl rfl
  next =>
    dsimp only
    split
    next => exact .inl rfl
    next => exact .inr ⟨_, rfl⟩

/-- A broadcast touches nothing but the tasks. -/
theorem broadcast_eq (c : Cluster) (n : NodeId) (r : Request String) :
    c.broadcast n r =
      { c with
        tasks := (c.broadcast n r).tasks
        fresh := (c.broadcast n r).fresh
        ready := (c.broadcast n r).ready } := by
  rcases c.broadcast_cases n r with e | ⟨_, e⟩
  · rw [e]
  · rw [e]
    rfl

def perform (n : NodeId) (c : Cluster) (e : Effect) : Cluster :=
  let c := c.record (.effect n e)
  match e.request? with
  | some request => c.broadcast n request
  | none => c

/-- What a manager asks for touches nothing but the tasks, and is seen. -/
theorem performAll_eq (n : NodeId) (effects : List Effect) (c : Cluster) : ∃ tasks fresh ready,
    effects.foldl (perform n) c =
      { c with tasks := tasks, fresh := fresh, ready := ready, events := c.events ++ effects.map (.effect n) } := by
  induction effects generalizing c with
  | nil => exact ⟨c.tasks, c.fresh, c.ready, by simp⟩
  | cons e effects ih =>
    have first : ∃ tasks fresh ready, perform n c e =
        { c with tasks := tasks, fresh := fresh, ready := ready, events := c.events ++ [.effect n e] } := by
      unfold perform
      dsimp only
      split
      next => exact ⟨_, _, _, broadcast_eq _ n _⟩
      next => exact ⟨_, _, _, rfl⟩
    obtain ⟨_, _, _, first⟩ := first
    obtain ⟨tasks, fresh, ready, rest⟩ := ih (perform n c e)
    refine ⟨tasks, fresh, ready, ?_⟩
    rw [List.foldl_cons, rest, first]
    simp only [List.append_assoc, List.singleton_append, List.map_cons]

/-- Lets the manager of a host act, and does what it asks for. -/
def manage {α : Type} (c : Cluster) (n : NodeId) (act : Manager → Manager × α) : Cluster × Option α :=
  match c.host? n with
  | none => (c, none)
  | some h =>
    match h.manager with
    | none => (c, none)
    | some m =>
      let (m, a) := act m
      let (effects, m) := m.drain
      (effects.foldl (perform n) (c.setHost n { h with manager := some m }), some a)

theorem manage_none {α : Type} {c : Cluster} {n : NodeId} (none : c.manager? n = none) (act : Manager → Manager × α) :
    c.manage n act = (c, .none) := by
  unfold manage
  cases hh : c.host? n with
  | none => rfl
  | some h =>
    have none : h.manager = .none := by
      unfold manager? at none
      rwa [hh] at none
    simp only [none]

theorem manage_some {α : Type} {c : Cluster} {n : NodeId} {h : Host} {m : Manager} (host : c.host? n = some h)
    (attached : h.manager = some m) (act : Manager → Manager × α) :
    c.manage n act =
      ((act m).1.drain.1.foldl (perform n) (c.setHost n { h with manager := some (act m).1.drain.2 }),
        some (act m).2) := by
  unfold manage
  simp only [host, attached]

theorem manage_cases {α : Type} (c : Cluster) (n : NodeId) (act : Manager → Manager × α) :
    c.manager? n = none ∧ c.manage n act = (c, none) ∨
      ∃ h m, c.host? n = some h ∧ h.manager = some m ∧
        c.manage n act =
          ((act m).1.drain.1.foldl (perform n) (c.setHost n { h with manager := some (act m).1.drain.2 }),
            some (act m).2) := by
  cases hm : c.manager? n with
  | none => exact .inl ⟨rfl, manage_none hm act⟩
  | some m =>
    obtain ⟨h, host, attached⟩ := Option.bind_eq_some_iff.mp hm
    exact .inr ⟨h, m, host, attached, manage_some host attached act⟩

def tell (c : Cluster) (n : NodeId) (act : Manager → Manager) : Cluster :=
  (c.manage n fun m => (act m, ())).1

/-- Passes on what the address book of a host reports. -/
def report (n : NodeId) (c : Cluster) : MembershipChange → Cluster
  | .joined node => c.tell n (·.join node)
  | .left node => c.tell n (·.leave node)

def withBook (c : Cluster) (n : NodeId)
    (f : AddressBook String → AddressBook String × List MembershipChange) :
    Cluster × List MembershipChange :=
  match c.host? n with
  | none => (c, [])
  | some h =>
    let (book, changes) := f h.book
    (c.setHost n { h with book := book }, changes)

def addMember (c : Cluster) (n : NodeId) (node : NodeId) (address : String) : Cluster :=
  let (c, changes) := c.withBook n (·.add node address)
  changes.foldl (report n) c

def removeMember (c : Cluster) (n : NodeId) (node : NodeId) : Cluster :=
  let (c, changes) := c.withBook n (·.remove node)
  changes.foldl (report n) c

/-- Passes on a change that came with a view; a new peer is asked for its free workers. -/
def reportView (n : NodeId) (c : Cluster) (change : MembershipChange) : Cluster :=
  let c := report n c change
  match change with
  | .joined node => if node = n then c else (c.spawn (.refresh n node)).1
  | .left _ => c

def onView (c : Cluster) (n : NodeId) (view : List (NodeId × String)) : Cluster :=
  let (c, changes) := c.withBook n (·.onView view)
  changes.foldl (reportView n) c

/-- Gives every connected host the list of all of them. -/
def publishView (c : Cluster) : Cluster :=
  c.net.connected.keys.foldl (fun c name => c.onView ⟨name⟩ c.net.view) c

/-- Connects the transport of a host and tells the others. -/
def connect (c : Cluster) (n : NodeId) : Cluster :=
  let c := { c with net := c.net.connect n.text }.publishView
  (c.addMember n n n.text).broadcast n (.join n n.text)

/-- Starts a message to each target that can be reached. -/
def post (c : Cluster) (sender : NodeId) (targets : List String) (op : UInt16) (body : List UInt8) :
    Cluster :=
  targets.foldl (fun c target =>
    match c.net.route sender.text target with
    | .ok () => (c.spawn (.post target op body (c.net.delay target))).1
    | .error _ => c) c

/-- Takes leave of the others and disconnects the transport of a host. -/
def disconnect (c : Cluster) (n : NodeId) : Cluster :=
  match c.host? n with
  | none => c
  | some h =>
    let (op, body) := (Request.leave n : Request String).encode .string
    let c := c.post n h.book.peerAddresses op body
    let c :=
      if c.net.connected.contains n.text then
        { c with net := c.net.disconnect n.text }.publishView
      else c
    (c.withBook n fun b => (b.clear, [])).1

end Cluster

end Workshare
