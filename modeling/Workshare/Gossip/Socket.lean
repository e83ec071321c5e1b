import Workshare.Gossip.Service

namespace Workshare.Gossip

/-- What a socket has to say against a letter, if anything. -/
abbrev Faults := Letter → Option String

/-- The letters that leave. -/
def Faults.passed (faults : Faults) (letters : List Letter) : List Letter :=
  letters.filter fun l => (faults l).isNone

namespace Service

/-- The fault with which the handling of a message ends. Only an answer is waited for. -/
def fault? (faults : Faults) (letters : List Letter) : GossipMessage → Option String
  | .ping _ _ _ => letters.findSome? faults
  | _ => none

/-- What one message changes, and the letters that leave. -/
def handleOn (faults : Faults) (s : Service) (now : Nat) (src : SocketAddress) (m : GossipMessage) :
    Except Abort (Service × List Letter × Option String) := do
  let (s, letters) ← s.handle now src m
  return (s, faults.passed letters, fault? faults letters m)

/-- A fault is only told; the view is published as after any message. -/
def receiveOn (faults : Faults) (s : Service) (now : Nat) (src : SocketAddress) (bytes : List UInt8) :
    Except Abort (Step × Option String) :=
  match GossipMessage.codec.decode bytes with
  | .ok m => do
    let (s, letters, fault) ← s.handleOn faults now src m
    let (s, published) := s.publish
    return (⟨s, letters, published⟩, fault)
  | .error _ => .ok (⟨s, [], false⟩, none)

/-- The view is published before the suspicions leave. -/
def detectOn (faults : Faults) (s : Service) (now : Nat) : Step :=
  let step := s.detect now
  { step with letters := faults.passed step.letters }

end Service

end Workshare.Gossip
