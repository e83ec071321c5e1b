import Workshare.Cluster.Step
import Workshare.Http.Interface

namespace Workshare.Cluster

/-- Starts a node: its transport, then its manager, which announces the free workers. -/
def startNode (c : Cluster) (n : NodeId) : Cluster :=
  let c := (c.tell n (·.connect.1)).connect n
  let free := c.free n
  c.tell n (·.announceAll free)

def stopNode (c : Cluster) (n : NodeId) : Cluster :=
  ((c.tell n (·.disconnect)).disconnect n).tell n (·.disband)

def submit (c : Cluster) (n : NodeId) (mode : Mode) (work : Work) : Cluster × Option Answer :=
  c.run (.submit n mode work true)

/-- Starts a submission whose end is not waited for. -/
def submitLater (c : Cluster) (n : NodeId) (mode : Mode) (work : Work) : Cluster × Ticket :=
  c.spawn (.submit n mode work true)

/-- Submits a work to a peer, whatever the manager thinks of it. -/
def send (c : Cluster) (n peer : NodeId) (mode : Mode) (work : Work) : Cluster × Option Answer :=
  c.run (.ask n peer (.submit mode work) (.submit mode))

def ping (c : Cluster) (n peer : NodeId) : Cluster × Option Answer :=
  c.run (.ask n peer .ping (.ping c.now))

/-- Asks a peer for the free workers of one of its pools. -/
def askFree (c : Cluster) (n peer : NodeId) (long : Bool) : Cluster × Option Answer :=
  c.run (.ask n peer (freeRequest long) .free)

/-- Hands a host a request as if it had come from the network. -/
def request (c : Cluster) (n : NodeId) (op : UInt16) (body : List UInt8) : Cluster × Option Answer :=
  c.run (.serve n op body)

/-- Runs the handler of a work without taking a worker. -/
def handle (c : Cluster) (n : NodeId) (work : Work) : Cluster × Option Answer :=
  c.run (.handler n work none .fresh)

/-- Does what an HTTP request asks of a manager. -/
def act (c : Cluster) (n : NodeId) (m : Manager) : Http.Action → Cluster × Except Abort Http.Response
  | .submit mode work =>
    match c.submit n mode work with
    | (c, some (.outcome (.ok outcome))) => (c, .ok (Http.submitted work.id outcome))
    | (c, some (.outcome (.error abort))) => (c, .error abort)
    | (c, _) => (c, .ok (Http.refusal 500))
  | .ping node =>
    match m.ping node with
    | (_, .error e) => (c, .ok (Http.pinged node (.error e)))
    | (_, .ok _) =>
      match c.ping n node with
      | (c, some (.roundTrip r)) => (c, .ok (Http.pinged node (r.map (· * 1000))))
      | (c, _) => (c, .ok (Http.refusal 500))
  | action => (c, .ok (Http.tables m action))

/-- Serves an HTTP request at a node that has a manager; a work without an id gets `fresh`. -/
def http (c : Cluster) (n : NodeId) (fresh : WorkId) (r : Http.Request) :
    Cluster × Option (Except Abort Http.Response) :=
  match c.manager? n with
  | none => (c, none)
  | some m =>
    let (c, response) := c.act n m (r.action fresh)
    (c, some (response.map r.shape))

/-- Adds a handler to the pool of a host, or puts it in the place of the one of that name. -/
def register (c : Cluster) (n : NodeId) (name : String) (handler : Handler) : Cluster :=
  match c.host? n with
  | some { executor := .pool p, manager, book, timeout } =>
    c.setHost n ⟨.pool { p with handlers := p.handlers.insert name handler }, manager, book, timeout⟩
  | _ => c

/-- Runs what can go on; then a millisecond passes. What the clock wakes by then goes on later. -/
def tick (c : Cluster) : Cluster :=
  let c := c.quiesce
  c.ring (c.now + 1)

def drain (c : Cluster) : Cluster :=
  { c with answers := [], events := [] }

end Workshare.Cluster
