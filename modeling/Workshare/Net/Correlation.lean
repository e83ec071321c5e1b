import Workshare.Net.Frame
import Workshare.Table

namespace Workshare

/-- How a call ended. -/
abbrev CallResult := Except ChannelError (List UInt8)

namespace Correlation

/-- What has come for a call. -/
inductive Slot
  | empty
  | reply (result : FrameResult)
  | dropped

/-- A call is `failing` between its error and its return; until then it may still be pending. -/
inductive Stage
  | sending
  | waiting
  | failing (error : ChannelError)

structure Call where
  frame : Frame
  limit : Duration
  stage : Stage
  slot : Slot

end Correlation

structure Correlation where
  /-- The number of the next frame that asks for something. -/
  next : UInt64
  /-- The calls that a reply would still be put into the slot of. -/
  pending : Table Nat Unit
  /-- The calls that have not returned. -/
  calls : Table Nat Correlation.Call

namespace Correlation

def start : Correlation :=
  ⟨1, .empty, .empty⟩

/-- Begins a call; it is pending before its frame is sent. -/
def call (c : Correlation) (op : UInt16) (body : List UInt8) (limit : Duration) : Correlation :=
  ⟨c.next + 1, c.pending.insert c.next.toNat (),
    c.calls.insert c.next.toNat ⟨.request c.next op body true, limit, .sending, .empty⟩⟩

/-- A message that nobody answers takes a number, too. -/
def oneWay (c : Correlation) (op : UInt16) (body : List UInt8) : Correlation × Frame :=
  ({ c with next := c.next + 1 }, .request c.next op body false)

/-- The frame of a call is sent, unless it is too large or the network has a fault. -/
def sent (c : Correlation) (id : Nat) (fault : Option String) : Correlation :=
  match c.calls.get? id with
  | some ⟨frame, limit, .sending, slot⟩ =>
    match frame.send fault with
    | .ok _ => { c with calls := c.calls.insert id ⟨frame, limit, .waiting, slot⟩ }
    | .error e => { c with calls := c.calls.insert id ⟨frame, limit, .failing e, slot⟩ }
  | _ => c

/-- The time limit of a call has come before anything else. -/
def expire (c : Correlation) (id : Nat) : Correlation :=
  match c.calls.get? id with
  | some ⟨frame, limit, .waiting, .empty⟩ =>
    { c with calls := c.calls.insert id ⟨frame, limit, .failing (.timeout limit), .empty⟩ }
  | _ => c

/-- The reply to a call; one that comes late or twice finds no call. -/
def reply (c : Correlation) (id : Nat) (result : FrameResult) : Correlation :=
  if c.pending.contains id then
    { c with
      pending := c.pending.erase id
      calls := c.calls.mapValues fun k call => if k = id then { call with slot := .reply result } else call }
  else c

/-- A datagram from the network; requests do not concern the calls. -/
def hear (c : Correlation) (bytes : List UInt8) : Correlation :=
  match Frame.codec.decode bytes with
  | .ok (.reply id result) => c.reply id.toNat result
  | _ => c

/-- Nothing will come any more for the calls that are pending. -/
def close (c : Correlation) : Correlation :=
  { c with
    pending := .empty
    calls := c.calls.mapValues fun k call => if c.pending.contains k then { call with slot := .dropped } else call }

def result : FrameResult → CallResult
  | .ok bytes => .ok bytes
  | .error text => .error (.remote text)

def Call.ends? : Call → Option CallResult
  | ⟨_, _, .failing e, _⟩ => some (.error e)
  | ⟨_, _, .waiting, .reply r⟩ => some (result r)
  | ⟨_, _, .waiting, .dropped⟩ => some (.error .closed)
  | _ => none

def finish (c : Correlation) (id : Nat) : Correlation × Option CallResult :=
  match (c.calls.get? id).bind Call.ends? with
  | some r => ({ c with pending := c.pending.erase id, calls := c.calls.erase id }, some r)
  | none => (c, none)

end Correlation

end Workshare
