import Workshare.Cluster.Service

namespace Workshare.Cluster

/-- A reply that has to hold a value. -/
def valueOf (peer : NodeId) : Except WorkError Reply → Except WorkError UInt64
  | .ok (.value n) => .ok n
  | .ok .done => .error (.distribution peer (.remote "expected a value in reply"))
  | .error e => .error e

def outcomeOf (peer : NodeId) (mode : Mode) (r : Except WorkError Reply) : Outcome :=
  match mode with
  | .start => (valueOf peer r).map some
  | .run => r.map fun _ => none
  | .schedule => r.map fun _ => none

def freeRequest (long : Bool) : Request String :=
  if long then .getLongRunningFree else .getShortRunningFree

/-- What a refresh does with an answer. -/
def refreshed (c : Cluster) (n peer : NodeId) (long : Bool) (r : Except WorkError Reply) : Cluster :=
  match valueOf peer r with
  | .ok free => c.tell n (·.updateFree peer long free)
  | .error _ => c

/-- The second half of a refresh. -/
def refreshLong (c : Cluster) (t : Ticket) (n peer : NodeId) : Cluster :=
  match c.call t n peer (freeRequest true) with
  | (c, .waits call) => c.park t (.call call (.refresh n true))
  | (c, .ends r) => (c.refreshed n peer true r).finish t none

/-- A call has ended. -/
def replied (c : Cluster) (t : Ticket) (peer : NodeId) (purpose : Purpose) (r : Except WorkError Reply) :
    Cluster :=
  match purpose with
  | .submit mode => c.finish t (some (.outcome (.ok (outcomeOf peer mode r))))
  | .ping since => c.finish t (some (.roundTrip (r.map fun _ => c.now - since)))
  | .free => c.finish t (some (.free (valueOf peer r)))
  | .refresh n true => (c.refreshed n peer true r).finish t none
  | .refresh n false => (c.refreshed n peer false r).refreshLong t n peer

def beginCall (c : Cluster) (t : Ticket) (n peer : NodeId) (request : Request String) (purpose : Purpose) :
    Cluster :=
  match c.call t n peer request with
  | (c, .waits call) => c.park t (.call call purpose)
  | (c, .ends r) => c.replied t peer purpose r

def errandEnded (c : Cluster) (t : Ticket) (client : Client) (outcome : Outcome) : Cluster :=
  match client with
  | .caller => c.finish t (some (.outcome (.ok outcome)))
  | .requester => c.finish t (some (.reply (encodeReply outcome.reply)))

def carryOn (c : Cluster) (t : Ticket) (client : Client) : Progress Errand Outcome → Cluster
  | .waits e => c.park t (.errand e client)
  | .ends outcome => c.errandEnded t client outcome

/-- A submission that a manager routes. -/
def route (c : Cluster) (t : Ticket) (n : NodeId) (mode : Mode) (work : Work) : Cluster :=
  let free := c.free n
  match c.manage n (·.submit free mode work) with
  | (c, some (.error abort)) => c.finish t (some (.outcome (.error abort)))
  | (c, some (.ok (.dispatch _ node))) => c.beginCall t n node (.submit mode work) (.submit mode)
  | (c, some (.ok .execute)) =>
    let (c, p) := c.execute t n mode work
    c.carryOn t .caller p
  | (c, none) =>
    let (c, p) := c.execute t n mode work
    c.carryOn t .caller p

def deliver (c : Cluster) (t : Ticket) (target : String) (op : UInt16) (body : List UInt8) : Cluster :=
  match c.serve t ⟨target⟩ op body with
  | (c, .waits e) => c.park t (.errand e .requester)
  | (c, .ends _) => c.finish t none

def resume (c : Cluster) (t : Ticket) : Task → Cluster
  | .submit n mode work true => c.route t n mode work
  | .submit n mode work false =>
    let (c, p) := c.submitHere t n mode work
    c.carryOn t .caller p
  | .ask n peer request purpose => c.beginCall t n peer request purpose
  | .serve n op body =>
    match c.serve t n op body with
    | (c, .waits e) => c.park t (.errand e .requester)
    | (c, .ends bytes) => c.finish t (some (.reply bytes))
  | .errand e client =>
    let (c, p) := c.pollErrand t e
    c.carryOn t client p
  | .call call purpose =>
    match c.pollCall t call with
    | (c, .waits call) => c.park t (.call call purpose)
    | (c, .ends r) => c.replied t call.peer purpose r
  | .broadcast sender targets op body => (c.post sender targets op body).finish t none
  | .post target op body delay =>
    if delay = 0 then c.deliver t target op body
    else (c.setTimer t .stage (c.now + delay)).park t (.deliver target op body (c.now + delay))
  | .deliver target op body arrival =>
    if arrival ≤ c.now then c.deliver t target op body else c.park t (.deliver target op body arrival)
  | .refresh n peer =>
    if (c.manager? n).isSome then c.beginCall t n peer (freeRequest false) (.refresh n false)
    else c.finish t none
  | .runner n work waiter handler => c.pollRunner t n work waiter handler
  | .handler n work runner stage =>
    match c.pollHandler t n work stage with
    | (c, .waits stage) => c.park t (.handler n work runner stage)
    | (c, .ends verdict) => c.conclude t runner verdict
/-- Lets one task go on; a task that has ended does nothing. -/
def poll (c : Cluster) (t : Ticket) : Cluster :=
  match c.tasks.get? t with
  | some task => c.resume t task
  | none => c

/-- When the next timer is due. -/
def nextDue (c : Cluster) : Option Nat :=
  (c.timers.map (·.due)).min?

/-- The clock shows `time`, and every timer that is due wakes its task. -/
def ring (c : Cluster) (time : Nat) : Cluster :=
  let (due, later) := c.timers.partition (·.due ≤ time)
  { c with now := time, timers := later }.wakeAll (due.map Timer.task)

/-- Runs tasks in the order in which they became ready, at most `count` of them. -/
def runReady : Nat → Cluster → Cluster
  | 0, c => c
  | count + 1, c =>
    match c.ready with
    | [] => c
    | t :: rest => runReady count ({ c with ready := rest }.poll t)

/-- The task that the outside waits for goes on, if it can. -/
def runFront (c : Cluster) : Cluster :=
  match c.front with
  | some t => if c.called then { c with called := false }.poll t else c
  | none => c

/-- How many tasks run before the front is looked at again. -/
def turn : Nat :=
  61

/-- No run of interest takes more turns than this. -/
def patience : Nat :=
  1000000

/-- Runs everything that can go on without the clock. -/
def runTurns : Nat → Cluster → Cluster
  | 0, c => c
  | fuel + 1, c =>
    let c := runReady turn c.runFront
    if c.called || !c.ready.isEmpty then runTurns fuel c else c

def quiesce (c : Cluster) : Cluster :=
  runTurns patience c

/-- Lets time pass up to an instant. -/
def passUntil (time : Nat) : Nat → Cluster → Cluster
  | 0, c => c
  | fuel + 1, c =>
    let c := c.quiesce
    match c.nextDue with
    | some due =>
      if due ≤ time then passUntil time fuel (c.ring due) else { c with now := time }
    | none => { c with now := time }

def pass (c : Cluster) (millis : Nat) : Cluster :=
  passUntil (c.now + millis) patience c

/-- Lets time pass until a task has ended, or nothing more can happen. -/
def awaitTask (t : Ticket) : Nat → Cluster → Cluster
  | 0, c => c
  | fuel + 1, c =>
    let c := c.quiesce
    if c.tasks.contains t then
      match c.nextDue with
      | some due => awaitTask t fuel (c.ring due)
      | none => c
    else c

/-- Runs a task to its end, before everything else that can go on. -/
def run (c : Cluster) (task : Task) : Cluster × Option Answer :=
  let t := c.fresh
  let c := { c with fresh := t + 1, front := some t, called := false }.resume t task
  let c := awaitTask t patience c
  ({ c with front := none, called := false }, c.answers.lookup t)

end Workshare.Cluster
