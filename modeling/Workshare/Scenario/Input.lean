import Workshare.Cluster.Task
import Workshare.Executor.Pool
import Workshare.Executor.Script
import Workshare.Json.Field

namespace Workshare.Scenario

open Json

/-- Either a value, or the text with which whoever is asked for it aborts. -/
def answer {α : Type} (f : Value → α) (v : Value) : Except Abort α :=
  match v.member? "panic" with
  | some text => .error ⟨text.asText⟩
  | none => .ok (f v)

def node (v : Value) (name : String) : NodeId :=
  ⟨v.textAt name⟩

def counter (v : Value) (name : String) : Counter :=
  (Counter.ofName? (v.textAt name)).getD default

def mode (v : Value) : Mode :=
  match v.textAt "mode" with
  | "start" => .start
  | "schedule" => .schedule
  | _ => .run

def bareWork (v : Value) : Work :=
  ⟨⟨v.textOr "id" "w"⟩, v.textAt "handler", v.field "payload", v.flagAt "distributable",
    v.flagAt "long_running"⟩

def work (v : Value) : Work :=
  bareWork (v.field "work")

def channelError (v : Value) : ChannelError :=
  match v.textAt "kind" with
  | "timeout" => .timeout (if (v.member? "ns").isSome then ⟨v.natAt "ns"⟩ else .ofMillis (v.natAt "ms"))
  | "unreachable" => .unreachable (v.textAt "text")
  | "unknown_member" => .unknownMember (node v "text")
  | "remote" => .remote (v.textAt "text")
  | "unknown_operation" => .unknownOperation (v.natAt "id").toUInt16
  | _ => .closed

def workError (v : Value) : WorkError :=
  match v.textAt "kind" with
  | "rejected" => .rejected (v.textAt "text")
  | "failed" => .failed (v.textAt "text")
  | "configuration" => .configuration (v.textAt "text")
  | _ => .distribution (node v "node") (channelError (v.field "source"))

def request {α : Type} (address : String → α) (v : Value) : Request α :=
  match v.textAt "kind" with
  | "Join" => .join (node v "node") (address (v.textAt "address"))
  | "Leave" => .leave (node v "node")
  | "DoWork" => .doWork (work v)
  | "StartWork" => .startWork (work v)
  | "ScheduleWork" => .scheduleWork (work v)
  | "GetShortRunningFree" => .getShortRunningFree
  | "GetLongRunningFree" => .getLongRunningFree
  | "UpdateShortRunningFree" => .updateShortRunningFree (node v "node") (v.wordAt "free")
  | "UpdateLongRunningFree" => .updateLongRunningFree (node v "node") (v.wordAt "free")
  | "Delta" => .delta (node v "origin") (counter v "counter")
  | _ => .ping

def reply : Value → ReplyResult
  | .obj [("value", n)] => .ok (.value n.asWord)
  | .obj [("err", s)] => .error s.asText
  | _ => .ok .done

/-- A notice of the named kind; the rest of it stands in `v`. -/
def notice (v : Value) (kind : String) (who : NodeId) : Notice :=
  match kind with
  | "join" => .join who
  | "leave" => .leave who
  | "short" => .free who false (v.wordAt "free")
  | "long" => .free who true (v.wordAt "free")
  | _ => .delta who (counter v "counter")

/-- Lines of a node and its two free counts. -/
def capacity (v : Value) : CapacityTable :=
  v.asItems.foldl (fun t line =>
    match line with
    | .arr [n, short, long] => t.update ⟨n.asText⟩ ⟨short.asWord, long.asWord⟩
    | _ => t) .empty

def settings (v : Value) : ManagerSettings :=
  ⟨v.flagOr "statistics" true, .ofMillis (v.natOr "timeout_ms" 10000)⟩

def policyRule (self : NodeId) (v : Value) : PolicyRule :=
  match v.textAt "kind" with
  | "always" => .always
  | "never" => .never
  | "watermark" => .waterMark (.start ⟨v.textOr "local" self.text⟩ (v.wordAt "level"))
  | _ => .custom (v.flagAt "listen") fun _ => answer Value.asFlag (v.field "answer")

def selectorRule (v : Value) : SelectorRule :=
  let choice : Value → Option NodeId
    | .str s => some ⟨s⟩
    | _ => none
  match v.textAt "kind" with
  | "first" => .firstAvailable
  | "max" => .maxFreeWorkers
  | _ => .custom (v.flagAt "listen") fun _ _ => answer choice (v.field "answer")

/-- A script with the described changes. -/
def changedScript (s : Script) (v : Value) : Script :=
  let word (name : String) (old : UInt64) : UInt64 := (v.natOr name old.toNat).toUInt64
  { free := ⟨word "short" s.free.short, word "long" s.free.long⟩
    reject := v.flagOr "reject" s.reject
    fail := v.flagOr "fail" s.fail
    startDelay := word "start_delay" s.startDelay
    delay := v.natOr "delay_ms" s.delay }

def script (v : Value) : Script :=
  changedScript ⟨.none, false, false, 0, 0⟩ v

def poolSettings (v : Value) : PoolSettings :=
  { shortThreads := (v.natOr "short" 8).toUInt64
    longThreads := (v.natOr "long" 4).toUInt64
    startTimeout := .ofMillis (v.natOr "start_timeout_ms" 1000) }

def failsWith (text : String) : Behaviour :=
  .ends (.error (.failed text))

/-- What a handler of a kind does; texts and times stand in the payload. -/
def behaviour (kind : String) (w : Work) : Behaviour :=
  let text := w.payload.textOr "text" "boom"
  let millis := w.payload.natOr "ms" 0
  match kind with
  | "ok" => .ends (.ok ())
  | "fail" => failsWith text
  | "panic" => .ends (.error (.panicked text))
  | "sleep" => .sleeps millis (.ends (.ok ()))
  | "sleep_fail" => .sleeps millis (failsWith "after sleep")
  | _ => .waits (.ends (.ok ()))

def handler (kind : String) : Handler :=
  ⟨kind, behaviour kind⟩

/-- Every kind of handler under its own name. -/
def allHandlers : Registry :=
  .ofList (["ok", "fail", "panic", "sleep", "sleep_fail", "gate"].map fun k => (k, handler k))

end Workshare.Scenario
