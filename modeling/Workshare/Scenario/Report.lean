import Workshare.Cluster.Basic
import Workshare.Text.Hex

namespace Workshare.Report

open Json

def nat (n : Nat) : Value := .int n
def word (n : UInt64) : Value := .int n.toNat
def node (n : NodeId) : Value := .str n.text
def bytes (bs : List UInt8) : Value := .str (Hex.encode bs)

def option {α : Type} (f : α → Value) : Option α → Value
  | some a => f a
  | none => .null

def abort (text : String) : Value :=
  .obj [("panic", .str text)]

def aborted {α : Type} (f : α → Value) : Except Abort α → Value
  | .ok a => f a
  | .error e => abort e.text

def work (w : Work) : Value :=
  .obj [("id", .str w.id.text), ("handler", .str w.handler), ("payload", .str w.payload.text),
    ("distributable", .bool w.distributable), ("long_running", .bool w.longRunning)]

def channelKind : ChannelError → String
  | .timeout _ => "Timeout"
  | .unreachable _ => "Unreachable"
  | .unknownMember _ => "UnknownMember"
  | .remote _ => "Remote"
  | .unknownOperation _ => "UnknownOperation"
  | .closed => "Closed"
  | .codec _ => "Codec"
  | .io _ => "Io"

def faultKind : Wire.Fault → String
  | .cutShort => "Io"
  | .cutContents => "Io"
  | .utf8 _ => "InvalidUtf8Encoding"
  | .flag _ => "InvalidBoolEncoding"
  | .unknown => "Custom"

def channelError (e : ChannelError) : Value :=
  let kind : List (String × Value) := [("error", .str (channelKind e))]
  match e with
  | .codec .unknown => .obj (kind ++ [("codec", .str (faultKind .unknown))])
  | .codec f => .obj (kind ++ [("codec", .str (faultKind f)), ("message", .str e.message)])
  | _ => .obj (kind ++ [("message", .str e.message)])

def workError (e : WorkError) : Value :=
  let kind : List (String × Value) :=
    match e with
    | .rejected _ => [("error", .str "Rejected")]
    | .failed _ => [("error", .str "Failed")]
    | .configuration _ => [("error", .str "Configuration")]
    | .distribution n source =>
      [("error", .str "Distribution"), ("node", node n), ("source", .str (channelKind source))]
  .obj (kind ++ [("message", .str e.message), ("status", nat e.status), ("timeout", .bool e.isTimeout),
    ("distribution", .bool e.isDistribution)])

def result {α : Type} (f : α → Value) : Except WorkError α → Value
  | .ok a => f a
  | .error e => workError e

def okay (v : Value) : Value :=
  .obj [("ok", v)]

def outcome : Outcome → Value :=
  result fun delay => (delay.map fun n => okay (word n)).getD (.str "ok")

def request {α : Type} (address : α → String) (r : Request α) : Value :=
  let tag (kind : String) (rest : List (String × Value)) : Value := .obj (("kind", .str kind) :: rest)
  match r with
  | .join n a => tag "Join" [("node", node n), ("address", .str (address a))]
  | .leave n => tag "Leave" [("node", node n)]
  | .ping => tag "Ping" []
  | .doWork w => tag "DoWork" [("work", work w)]
  | .startWork w => tag "StartWork" [("work", work w)]
  | .scheduleWork w => tag "ScheduleWork" [("work", work w)]
  | .getShortRunningFree => tag "GetShortRunningFree" []
  | .getLongRunningFree => tag "GetLongRunningFree" []
  | .updateShortRunningFree n free => tag "UpdateShortRunningFree" [("node", node n), ("free", word free)]
  | .updateLongRunningFree n free => tag "UpdateLongRunningFree" [("node", node n), ("free", word free)]
  | .delta n c => tag "Delta" [("origin", node n), ("counter", .str c.name)]

def reply : ReplyResult → Value
  | .ok .done => okay (.str "Done")
  | .ok (.value n) => okay (.obj [("Value", word n)])
  | .error text => .obj [("err", .str text)]

def free (f : Free) : Value := .arr [word f.short, word f.long]

def capacityEntry (e : CapacityEntry) : Value :=
  .arr [node e.node, word e.free.short, word e.free.long]

def tally (t : Tally Nat) : Value := .arr (t.toList.map nat)

def tallies (s : Statistics) : Value :=
  .arr (s.tallies.entries.map fun (n, t) => .arr [node n, tally t])

def manager (m : Manager) : List (String × Value) := [
  ("nodes", tallies m.statistics), ("aggregate", tally m.statistics.aggregate),
  ("enabled", .bool m.statistics.enabled), ("members", .arr (m.members.members.map node)),
  ("capacity", .arr (m.capacity.entries.map capacityEntry))]

def modeName : Mode → String
  | .run => "do"
  | .start => "start"
  | .schedule => "schedule"

/-- What tells apart instances of equal names: the last digit of a tag's number is its role. -/
inductive Role
  | policy
  | selector
  | transport
  | listener
  deriving DecidableEq, Repr

def Role.tag (r : Role) (name : String) (serial : Nat) : Tag :=
  ⟨name, 4 * serial + r.ctorIdx⟩

def roleOf (t : Tag) : Role :=
  match t.number % 4 with
  | 0 => .policy
  | 1 => .selector
  | 2 => .transport
  | _ => .listener

/-- The strategies that write down what they are asked. -/
abbrev Logged := List Tag

def notice (name : String) (n : Notice) : Value :=
  let row (kind : String) (who : NodeId) (rest : List Value) : Value :=
    .arr ([.str "listener", .str name, .str kind, node who] ++ rest)
  match n with
  | .join who => row "join" who []
  | .leave who => row "leave" who []
  | .free who false count => row "short" who [word count]
  | .free who true count => row "long" who [word count]
  | .delta origin c => row "delta" origin [.str c.name]

/-- Strategies write down only who joins and how many short-running workers are free, transports only who
comes and goes. -/
def writesDown (logged : Logged) (t : Tag) (n : Notice) : Bool :=
  match roleOf t, n with
  | .listener, _ => true
  | .transport, .join _ => true
  | .transport, .leave _ => true
  | .transport, _ => false
  | _, .join _ => t ∈ logged
  | _, .free _ false _ => t ∈ logged
  | _, _ => false

/-- The row that an effect of a manager leaves in a log, if it leaves one. -/
def effect (logged : Logged) (id : NodeId) (e : Effect) : Option Value :=
  let row (kind : String) (t : Tag) (rest : List Value) : Option Value :=
    some (.arr ([.str kind, .str t.name] ++ rest))
  let transport (t : Tag) (what : String) (rest : List Value) : Option Value :=
    row "transport" t (.str what :: rest)
  match e with
  | .attach t => transport t "attach" [node id]
  | .connect t => transport t "start" []
  | .disconnect t => transport t "stop" []
  | .ping t n => transport t "ping" [node n, .null]
  | .notify t n => if writesDown logged t n then some (notice t.name n) else none
  | .announce t n long count => transport t (if long then "long" else "short") [node n, word count]
  | .delta t origin c => transport t "delta" [node origin, .str c.name]
  | .askPolicy t w => if t ∈ logged then row "policy" t [.str w.id.text] else none
  | .askSelector t w => if t ∈ logged then row "selector" t [.str w.id.text] else none
  | .dispatch t mode n w => transport t (modeName mode) [node n, .str w.id.text]
  | .execute mode w =>
    some (.arr [.str "exec", node id, .str (modeName mode), .str w.id.text, .str w.handler,
      .str w.payload.text])

/-- The answer to a task; `timed` hides start delays, which are read off a clock. -/
def answer (timed : Bool) : Answer → Value
  | .outcome (.error e) => abort e.text
  | .outcome (.ok (.ok (some n))) => okay (if timed then .str "<ms>" else word n)
  | .outcome (.ok o) => outcome o
  | .roundTrip r => result (fun _ => okay (.str "<ms>")) r
  | .free r => result (fun n => okay (word n)) r
  | .reply (.error e) => channelError e
  | .reply (.ok bs) =>
    match ReplyResult.codec.decode bs with
    | .ok r => .obj [("reply", reply r)]
    | .error f => channelError (.codec f)
  | .verdict (.ok ()) => .str "ok"
  | .verdict (.error (.failed text)) => .obj [("error", .str "handler"), ("message", .str text)]
  | .verdict (.error (.panicked text)) => abort text

/-- Rows of a tag and a value, in the order of the tags. -/
def tagged (rows : List (String × Value)) : Value :=
  .arr ((rows.mergeSort fun a b => a.1 ≤ b.1).map fun (tag, v) => .arr [.str tag, v])

end Workshare.Report
