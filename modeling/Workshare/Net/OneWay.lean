import Workshare.Manager.Basic
import Workshare.Net.AddressBook
import Workshare.Request

namespace Workshare

open Wire

variable {α : Type}

def Cluster.updateFreeRequest (node : NodeId) (long : Bool) (free : UInt64) : Request α :=
  if long then .updateLongRunningFree node free else .updateShortRunningFree node free

/-- The request to everybody else that carries out an effect. -/
def Effect.request? : Effect → Option (Request α)
  | .announce _ node long free => some (Cluster.updateFreeRequest node long free)
  | .delta _ origin counter => some (.delta origin counter)
  | _ => none

/-- What a request tells a manager. -/
def Request.notice? : Request α → Option Notice
  | .updateShortRunningFree node free => some (.free node false free)
  | .updateLongRunningFree node free => some (.free node true free)
  | .delta origin counter => some (.delta origin counter)
  | _ => none

structure Letter (α : Type) where
  target : α
  op : UInt16
  body : List UInt8

namespace AddressBook

/-- A request to everybody else, one letter for each. -/
def letters (b : AddressBook α) (address : Codec α) (request : Request α) : List (Letter α) :=
  let (op, body) := request.encode address
  b.peerAddresses.map (⟨·, op, body⟩)

end AddressBook

end Workshare
