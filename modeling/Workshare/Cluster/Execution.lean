import Workshare.Cluster.Basic

namespace Workshare.Cluster

def withLane {α : Type} (c : Cluster) (n : NodeId) (long : Bool) (f : Lane → Lane × α) :
    Cluster × Option α :=
  match c.host? n with
  | some { executor := .pool p, manager, book, timeout } =>
    let (p, a) := p.withLane long f
    (c.setHost n ⟨.pool p, manager, book, timeout⟩, some a)
  | _ => (c, none)

def complete (c : Cluster) (n : NodeId) (work : Work) (success : Bool) : Cluster :=
  let c := c.record (.completed n work success)
  let free := c.free n
  c.tell n (·.complete free work.longRunning success)

def settle (c : Cluster) (e : Errand) (outcome : Outcome) : Cluster × Progress Errand Outcome :=
  ((c.record (.answered e.host e.mode outcome)).tell e.host (·.settle e.mode outcome), .ends outcome)

def readScript (c : Cluster) (e : Errand) (s : Script) : Cluster × Progress Errand Outcome :=
  let c :=
    match s.hook with
    | some success => c.complete e.host e.work success
    | none => c
  c.settle e (s.outcome e.mode)

/-- A work that waited since `since` has got a worker. -/
def begin (c : Cluster) (t : Ticket) (e : Errand) (since : Nat) : Cluster × Progress Errand Outcome :=
  match e.mode with
  | .run =>
    let (c, runner) := c.spawn (.runner e.host e.work (some t) none)
    (c, .waits { e with wait := .finish runner })
  | .start =>
    (c.spawn (.runner e.host e.work none none)).1.settle e (.ok (some (c.now - since).toUInt64))
  | .schedule => (c.spawn (.runner e.host e.work none none)).1.settle e (.ok none)

def reject (c : Cluster) (t : Ticket) (e : Errand) (p : Pool) : Cluster × Progress Errand Outcome :=
  let (c, next) := c.withLane e.host e.work.longRunning (·.quit t)
  (c.wakeAll (next.bind id).toList).settle e (.error (.rejected (p.noWorker e.work.longRunning)))

/-- Goes on with a work as far as it gets. -/
def pollErrand (c : Cluster) (t : Ticket) (e : Errand) : Cluster × Progress Errand Outcome :=
  match e.wait, c.executor? e.host with
  | .pause wake, some (.script s) =>
    if wake ≤ c.now then c.readScript e s else (c, .waits e)
  | .worker since deadline, some (.pool p) =>
    match c.withLane e.host e.work.longRunning (·.collect t) with
    | (c, some true) => (c.cancel t .stage).begin t e since
    | (c, _) => if deadline ≤ c.now then c.reject t e p else (c, .waits e)
  | .finish runner, _ =>
    match c.verdicts.get? runner with
    | some verdict =>
      let outcome : Outcome :=
        match verdict with
        | .ok () => .ok none
        | .error fault => .error (.failed fault.message)
      { c with verdicts := c.verdicts.erase runner }.settle e outcome
    | none => (c, .waits e)
  | _, _ => (c, .waits e)

/-- Hands a work to the executor of a host. -/
def execute (c : Cluster) (t : Ticket) (n : NodeId) (mode : Mode) (work : Work) :
    Cluster × Progress Errand Outcome :=
  match c.executor? n with
  | some (.script s) =>
    let e : Errand := ⟨n, mode, work, .pause (c.now + s.delay)⟩
    if s.delay = 0 then c.readScript e s
    else (c.setTimer t .stage (c.now + s.delay), .waits e)
  | some (.pool p) =>
    let deadline := c.now + p.startTimeout.millis
    let e : Errand := ⟨n, mode, work, .worker c.now deadline⟩
    match c.withLane n work.longRunning (·.ask t) with
    | (c, some true) => c.begin t e c.now
    | (c, _) => if deadline ≤ c.now then c.reject t e p else (c.setTimer t .stage deadline, .waits e)
  | none => (c, .ends (.error (.configuration "no executor")))

/-- Nobody waits for the answer any more. A work that has no worker yet stops waiting for one; one that has
goes on. -/
def abandon (c : Cluster) (t : Ticket) (e : Errand) : Cluster :=
  match e.wait with
  | .worker _ _ =>
    let (c, next) := c.withLane e.host e.work.longRunning (·.quit t)
    c.wakeAll (next.bind id).toList
  | .pause _ => c
  | .finish _ => c.record (.dropped e.host e.work)

/-- Goes on with a handler up to its next wait. -/
def follow (c : Cluster) (t : Ticket) : Behaviour → Cluster × Progress HandlerStage Verdict
  | .ends verdict => (c, .ends verdict)
  | .sleeps millis next =>
    if millis = 0 then c.follow t next
    else (c.setTimer t .stage (c.now + millis), .waits (.asleep (c.now + millis) next))
  | .waits next =>
    match c.gate.ask t with
    | (gate, true) => { c with gate := gate }.follow t next
    | (gate, false) => ({ c with gate := gate }, .waits (.held next))

def handlers (c : Cluster) (n : NodeId) : Registry :=
  match c.executor? n with
  | some (.pool p) => p.handlers
  | _ => .empty

def pollHandler (c : Cluster) (t : Ticket) (n : NodeId) (work : Work) :
    HandlerStage → Cluster × Progress HandlerStage Verdict
  | .fresh =>
    match (c.handlers n).get? work.handler with
    | some h => (c.record (.ran n h.title work)).follow t (h.act work)
    | none => (c, .ends (Registry.unknown work.handler))
  | .asleep wake next => if wake ≤ c.now then c.follow t next else (c, .waits (.asleep wake next))
  | .held next =>
    match c.gate.collect t with
    | (gate, true) => { c with gate := gate }.follow t next
    | (_, false) => (c, .waits (.held next))

/-- Tells the runner of a handler how the work ended, or leaves it as an answer. -/
def conclude (c : Cluster) (t : Ticket) (runner : Option Ticket) (verdict : Verdict) : Cluster :=
  match runner with
  | some r => ({ c with verdicts := c.verdicts.insert t verdict }.finish t none).wake r
  | none => c.finish t (some (.verdict verdict))

/-- The worker of a runner is free again before the outcome is told. -/
def retire (c : Cluster) (t : Ticket) (n : NodeId) (work : Work) (waiter : Option Ticket)
    (verdict : Verdict) : Cluster :=
  let (c, next) := c.withLane n work.longRunning Lane.giveBack
  let c := (c.wakeAll (next.bind id).toList).complete n work (verdict matches .ok ())
  match waiter with
  | some w =>
    ({ c with verdicts := c.verdicts.insert t verdict }.finish t none).wake w
  | none => c.finish t none

def pollRunner (c : Cluster) (t : Ticket) (n : NodeId) (work : Work) (waiter : Option Ticket) :
    Option Ticket → Cluster
  | none =>
    let (c, h) := c.spawn (.handler n work (some t) .fresh)
    c.park t (.runner n work waiter (some h))
  | some h =>
    match c.verdicts.get? h with
    | some verdict => { c with verdicts := c.verdicts.erase h }.retire t n work waiter verdict
    | none => c.park t (.runner n work waiter (some h))

/-- Gives signals to handlers that wait for one, the longest waiting first. -/
def release (c : Cluster) (n : Nat) : Cluster :=
  let (gate, woken) := c.gate.giveMany n
  { c with gate := gate }.wakeAll woken

end Workshare.Cluster
