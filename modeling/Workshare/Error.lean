import Workshare.NodeId
import Workshare.Duration
import Workshare.Wire.Codec

namespace Workshare

inductive ChannelError
  | timeout (limit : Duration)
  | unreachable (target : String)
  | unknownMember (node : NodeId)
  | remote (text : String)
  | unknownOperation (id : UInt16)
  | closed
  | codec (fault : Wire.Fault)
  | io (text : String)
  deriving DecidableEq, Repr

def ChannelError.message : ChannelError → String
  | .timeout limit => "request timed out after " ++ limit.text
  | .unreachable target => "peer unreachable: " ++ target
  | .unknownMember node => "unknown cluster member " ++ node.shown
  | .remote text => "remote error: " ++ text
  | .unknownOperation id => "unknown operation id " ++ toString id.toNat
  | .closed => "channel closed"
  | .codec fault => "codec error: " ++ fault.message.getD ""
  | .io text => "network error: " ++ text

inductive WorkError
  | rejected (reason : String)
  | failed (text : String)
  | distribution (node : NodeId) (source : ChannelError)
  | configuration (text : String)
  deriving DecidableEq, Repr

namespace WorkError

def message : WorkError → String
  | .rejected reason => "work rejected: " ++ reason
  | .failed text => "work failed: " ++ text
  | .distribution node source => "distribution to " ++ node.shown ++ " failed: " ++ source.message
  | .configuration text => "configuration error: " ++ text

def isDistribution : WorkError → Bool
  | .distribution _ _ => true
  | _ => false

def isTimeout : WorkError → Bool
  | .distribution _ (.timeout _) => true
  | _ => false

/-- The HTTP status that reports a failed submission. -/
def status : WorkError → Nat
  | .rejected _ => 503
  | .failed _ => 500
  | .configuration _ => 500
  | .distribution _ (.timeout _) => 504
  | .distribution _ _ => 502

end WorkError

end Workshare
