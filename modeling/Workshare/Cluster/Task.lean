import Workshare.Executor.Handler
import Workshare.Executor.Lane
import Workshare.Manager.Submission
import Workshare.Request
import Workshare.Reply

namespace Workshare

/-- Either something is still awaited, or there is a result. -/
inductive Progress (σ α : Type)
  | waits (state : σ)
  | ends (result : α)

/-- What a work that was handed to an executor waits for. -/
inductive Wait
  /-- For the script to be read. -/
  | pause (wake : Nat)
  /-- For a worker of its lane. -/
  | worker (since deadline : Nat)
  /-- For its end, which task `runner` reports. -/
  | finish (runner : Ticket)
  deriving DecidableEq, Repr

/-- A work on its way through the executor of a host. -/
structure Errand where
  host : NodeId
  mode : Mode
  work : Work
  wait : Wait

inductive Exchange
  | travelling (arrival : Nat) (op : UInt16) (body : List UInt8)
  | serving (errand : Errand)

/-- A request to a peer that has not been answered yet. -/
structure Call where
  peer : NodeId
  target : String
  limit : Duration
  deadline : Nat
  exchange : Exchange

/-- What the reply to a call is for. -/
inductive Purpose
  | submit (mode : Mode)
  | ping (since : Nat)
  | free
  /-- To learn the free workers of a peer, first the short-running ones. -/
  | refresh (host : NodeId) (long : Bool)

/-- Who hears the end of an errand that was not called for by a peer's call. -/
inductive Client
  | caller
  | requester
  deriving DecidableEq, Repr

inductive HandlerStage
  | fresh
  | asleep (wake : Nat) (next : Behaviour)
  | held (next : Behaviour)

inductive Task
  /-- A submission; one that is not routed goes to the local executor at once. -/
  | submit (host : NodeId) (mode : Mode) (work : Work) (routed : Bool)
  | ask (host : NodeId) (peer : NodeId) (request : Request String) (purpose : Purpose)
  | serve (host : NodeId) (op : UInt16) (body : List UInt8)
  | errand (errand : Errand) (client : Client)
  | call (call : Call) (purpose : Purpose)
  | broadcast (sender : NodeId) (targets : List String) (op : UInt16) (body : List UInt8)
  | post (target : String) (op : UInt16) (body : List UInt8) (delay : Nat)
  | deliver (target : String) (op : UInt16) (body : List UInt8) (arrival : Nat)
  | refresh (host : NodeId) (peer : NodeId)
  /-- Holds a worker while task `handler` runs the work; `waiter` awaits the end. -/
  | runner (host : NodeId) (work : Work) (waiter : Option Ticket) (handler : Option Ticket)
  | handler (host : NodeId) (work : Work) (runner : Option Ticket) (stage : HandlerStage)

inductive Answer
  | outcome (outcome : Except Abort Outcome)
  | roundTrip (millis : Except WorkError Nat)
  | free (count : Except WorkError UInt64)
  | reply (bytes : Except ChannelError (List UInt8))
  | verdict (verdict : Verdict)

end Workshare
