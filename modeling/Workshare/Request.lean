import Workshare.Operation
import Workshare.Wire.Domain

namespace Workshare

open Wire

inductive Request (α : Type)
  | join (node : NodeId) (address : α)
  | leave (node : NodeId)
  | ping
  | doWork (work : Work)
  | startWork (work : Work)
  | scheduleWork (work : Work)
  | getShortRunningFree
  | getLongRunningFree
  | updateShortRunningFree (node : NodeId) (free : UInt64)
  | updateLongRunningFree (node : NodeId) (free : UInt64)
  | delta (origin : NodeId) (counter : Counter)
  deriving Repr

namespace Request

variable {α : Type}

def operation : Request α → Operation
  | .join _ _ => .join
  | .leave _ => .leave
  | .ping => .ping
  | .doWork _ => .doWork
  | .startWork _ => .startWork
  | .scheduleWork _ => .scheduleWork
  | .getShortRunningFree => .getShortRunningFree
  | .getLongRunningFree => .getLongRunningFree
  | .updateShortRunningFree _ _ => .updateShortRunningFree
  | .updateLongRunningFree _ _ => .updateLongRunningFree
  | .delta _ c => .delta c

/-- The request that submits a work in the given mode. -/
def submit (mode : Mode) (work : Work) : Request α :=
  match mode with
  | .run => .doWork work
  | .start => .startWork work
  | .schedule => .scheduleWork work

/-- The work that a request submits, and how. -/
def submission? : Request α → Option (Mode × Work)
  | .doWork w => some (.run, w)
  | .startWork w => some (.start, w)
  | .scheduleWork w => some (.schedule, w)
  | _ => none

def body (address : Codec α) : Request α → List UInt8
  | .join node a => (NodeId.codec.pair address).write (node, a)
  | .leave node => NodeId.codec.write node
  | .doWork w => Work.codec.write w
  | .startWork w => Work.codec.write w
  | .scheduleWork w => Work.codec.write w
  | .updateShortRunningFree node free => (NodeId.codec.pair .word64).write (node, free)
  | .updateLongRunningFree node free => (NodeId.codec.pair .word64).write (node, free)
  | .delta origin _ => NodeId.codec.write origin
  | .ping => []
  | .getShortRunningFree => []
  | .getLongRunningFree => []

/-- Reads the arguments of an operation; bodies of operations without arguments are not looked at. -/
def ofBody (address : Codec α) (body : List UInt8) : Operation → Except Fault (Request α)
  | .join => ((NodeId.codec.pair address).decode body).map fun (node, a) => .join node a
  | .leave => (NodeId.codec.decode body).map .leave
  | .ping => .ok .ping
  | .doWork => (Work.codec.decode body).map .doWork
  | .startWork => (Work.codec.decode body).map .startWork
  | .scheduleWork => (Work.codec.decode body).map .scheduleWork
  | .getShortRunningFree => .ok .getShortRunningFree
  | .getLongRunningFree => .ok .getLongRunningFree
  | .updateShortRunningFree =>
    ((NodeId.codec.pair .word64).decode body).map fun (node, n) => .updateShortRunningFree node n
  | .updateLongRunningFree =>
    ((NodeId.codec.pair .word64).decode body).map fun (node, n) => .updateLongRunningFree node n
  | .delta c => (NodeId.codec.decode body).map (.delta · c)

def encode (address : Codec α) (r : Request α) : UInt16 × List UInt8 :=
  (r.operation.id, r.body address)

/-- The operation's number is judged before the body. -/
def decode (address : Codec α) (id : UInt16) (body : List UInt8) : Except ChannelError (Request α) := do
  let op ← Operation.ofId id
  match ofBody address body op with
  | .ok r => .ok r
  | .error f => .error (.codec f)

end Request

end Workshare
