import Workshare.Cluster.Execution

namespace Workshare

/-- The reply to a request that submitted a work. -/
def Outcome.reply : Outcome → ReplyResult
  | .ok none => .ok .done
  | .ok (some delay) => .ok (.value delay)
  | .error e => .error e.message

abbrev ReplyBytes := Except ChannelError (List UInt8)

namespace Cluster

def encodeReply (r : ReplyResult) : ReplyBytes :=
  .ok (ReplyResult.codec.write r)

/-- Does what a request asks for that is answered at once. -/
def answerNow (c : Cluster) (n : NodeId) (request : Request String) : Cluster × ReplyResult :=
  let onManager (act : Manager → Manager × Reply) : Cluster × ReplyResult :=
    match c.manage n act with
    | (c, some r) => (c, .ok r)
    | (c, none) => (c, .error "no work manager attached")
  match request with
  | .join node address => (c.addMember n node address, .ok .done)
  | .leave node => (c.removeMember n node, .ok .done)
  | .ping => (c, .ok (.value c.now.toUInt64))
  | .getShortRunningFree => onManager fun m => (m, .value (c.free n).short)
  | .getLongRunningFree => onManager fun m => (m, .value (c.free n).long)
  | request => onManager fun m => (request.notice?.elim m m.hear, .done)

def submitHere (c : Cluster) (t : Ticket) (n : NodeId) (mode : Mode) (work : Work) :
    Cluster × Progress Errand Outcome :=
  let free := c.free n
  (c.tell n (·.handOver free mode work)).execute t n mode work

/-- Serves a request; the operation and the arguments are judged before anything is done. -/
def serve (c : Cluster) (t : Ticket) (n : NodeId) (op : UInt16) (body : List UInt8) :
    Cluster × Progress Errand ReplyBytes :=
  match Request.decode .string op body with
  | .error e => (c, .ends (.error e))
  | .ok request =>
    match request.submission?, c.manager? n with
    | some (mode, work), some _ =>
      match c.submitHere t n mode work with
      | (c, .waits e) => (c, .waits e)
      | (c, .ends outcome) => (c, .ends (encodeReply outcome.reply))
    | _, _ =>
      let (c, r) := c.answerNow n request
      (c, .ends (encodeReply r))

/-- What the caller makes of the bytes that came back. -/
def received (peer : NodeId) : ReplyBytes → Except WorkError Reply
  | .error e => .error (.distribution peer e)
  | .ok bytes =>
    match ReplyResult.codec.decode bytes with
    | .error f => .error (.distribution peer (.codec f))
    | .ok (.ok r) => .ok r
    | .ok (.error text) => .error (.distribution peer (.remote text))

/-- A call ends with its reply, or with its time limit if the reply is not there by then. -/
def judge (c : Cluster) (t : Ticket) (call : Call) :
    Progress Exchange ReplyBytes → Cluster × Progress Call (Except WorkError Reply)
  | .ends bytes => ((c.cancel t .limit).cancel t .stage, .ends (received call.peer bytes))
  | .waits exchange =>
    if call.deadline ≤ c.now then
      let c := (c.cancel t .limit).cancel t .stage
      let c :=
        match exchange with
        | .serving e => c.abandon t e
        | .travelling _ _ _ => c
      (c, .ends (.error (.distribution call.peer (.timeout call.limit))))
    else (c, .waits { call with exchange := exchange })

/-- A request has arrived. -/
def arrive (c : Cluster) (t : Ticket) (target : String) (op : UInt16) (body : List UInt8) :
    Cluster × Progress Exchange ReplyBytes :=
  match c.serve t ⟨target⟩ op body with
  | (c, .waits e) => (c, .waits (.serving e))
  | (c, .ends bytes) => (c, .ends bytes)

def pollCall (c : Cluster) (t : Ticket) (call : Call) :
    Cluster × Progress Call (Except WorkError Reply) :=
  match call.exchange with
  | .travelling arrival op body =>
    if arrival ≤ c.now then
      let (c, p) := c.arrive t call.target op body
      c.judge t call p
    else c.judge t call (.waits call.exchange)
  | .serving e =>
    match c.pollErrand t e with
    | (c, .waits e) => c.judge t call (.waits (.serving e))
    | (c, .ends outcome) => c.judge t call (.ends (encodeReply outcome.reply))

/-- Sends a request to a peer whose address is known. -/
def dial (c : Cluster) (t : Ticket) (n peer : NodeId) (target : String) (limit : Duration)
    (request : Request String) : Cluster × Progress Call (Except WorkError Reply) :=
  match c.net.route n.text target with
  | .error e => (c, .ends (.error (.distribution peer e)))
  | .ok () =>
    let (op, body) := request.encode .string
    let delay := c.net.delay target
    let call : Call := ⟨peer, target, limit, c.now + limit.millis, .travelling (c.now + delay) op body⟩
    let (c, p) :=
      if delay = 0 then c.pollCall t call
      else (c.setTimer t .stage (c.now + delay)).judge t call (.waits call.exchange)
    match p with
    | .waits call => (c.setTimer t .limit call.deadline, .waits call)
    | .ends r => (c, .ends r)

/-- Calls a peer from a host. -/
def call (c : Cluster) (t : Ticket) (n peer : NodeId) (request : Request String) :
    Cluster × Progress Call (Except WorkError Reply) :=
  match c.host? n with
  | none => (c, .ends (.error (.distribution peer (.unknownMember peer))))
  | some h =>
    match h.book.resolve peer with
    | none => (c, .ends (.error (.distribution peer (.unknownMember peer))))
    | some target => c.dial t n peer target h.timeout request

end Cluster

end Workshare
