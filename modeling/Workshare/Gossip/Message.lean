import Workshare.Wire.Domain

namespace Workshare

open Wire

inductive MemberState
  | alive
  | suspect
  | dead
  deriving DecidableEq, Repr, Inhabited

/-- What gossip says about a node. A higher incarnation is the newer word about it. -/
structure Member where
  id : NodeId
  gossipAddr : SocketAddress
  rpcAddr : SocketAddress
  state : MemberState
  incarnation : UInt64
  deriving DecidableEq, Repr

inductive GossipMessage
  | ping (sender : NodeId) (rpcAddr : SocketAddress) (incarnation : UInt64)
  | ack (sender : NodeId) (incarnation : UInt64) (members : List Member)
  | join (node : Member)
  | leave (node : NodeId)
  | suspect (node : NodeId) (incarnation : UInt64)
  | alive (node : NodeId) (incarnation : UInt64)
  deriving DecidableEq, Repr

namespace MemberState

def all : List MemberState := [.alive, .suspect, .dead]

def codec : Codec MemberState :=
  (Codec.tagged 3 (fun _ => Unit) fun _ => .unit).imap
    (fun
      | ⟨0, _⟩ => .alive
      | ⟨1, _⟩ => .suspect
      | ⟨_, _⟩ => .dead)
    (fun
      | .alive => ⟨0, ()⟩
      | .suspect => ⟨1, ()⟩
      | .dead => ⟨2, ()⟩)

end MemberState

def Member.codec : Codec Member :=
  (NodeId.codec.pair (SocketAddress.codec.pair (SocketAddress.codec.pair
      (MemberState.codec.pair .word64)))).imap
    (fun (id, gossip, rpc, state, incarnation) => ⟨id, gossip, rpc, state, incarnation⟩)
    (fun m => (m.id, m.gossipAddr, m.rpcAddr, m.state, m.incarnation))

namespace GossipMessage

/-- What stands behind each tag. -/
def Body : Fin 6 → Type
  | 0 => NodeId × SocketAddress × UInt64
  | 1 => NodeId × UInt64 × List Member
  | 2 => Member
  | 3 => NodeId
  | 4 => NodeId × UInt64
  | 5 => NodeId × UInt64

def bodyCodec : (i : Fin 6) → Codec (Body i)
  | 0 => NodeId.codec.pair (SocketAddress.codec.pair .word64)
  | 1 => NodeId.codec.pair (Codec.word64.pair Member.codec.list)
  | 2 => Member.codec
  | 3 => NodeId.codec
  | 4 => NodeId.codec.pair .word64
  | 5 => NodeId.codec.pair .word64

def ofBody : (i : Fin 6) × Body i → GossipMessage
  | ⟨0, (sender, rpc, incarnation)⟩ => .ping sender rpc incarnation
  | ⟨1, (sender, incarnation, members)⟩ => .ack sender incarnation members
  | ⟨2, node⟩ => .join node
  | ⟨3, node⟩ => .leave node
  | ⟨4, (node, incarnation)⟩ => .suspect node incarnation
  | ⟨5, (node, incarnation)⟩ => .alive node incarnation

def toBody : GossipMessage → (i : Fin 6) × Body i
  | .ping sender rpc incarnation => ⟨0, (sender, rpc, incarnation)⟩
  | .ack sender incarnation members => ⟨1, (sender, incarnation, members)⟩
  | .join node => ⟨2, node⟩
  | .leave node => ⟨3, node⟩
  | .suspect node incarnation => ⟨4, (node, incarnation)⟩
  | .alive node incarnation => ⟨5, (node, incarnation)⟩

def codec : Codec GossipMessage :=
  (Codec.tagged 6 Body bodyCodec).imap ofBody toBody

end GossipMessage

end Workshare
