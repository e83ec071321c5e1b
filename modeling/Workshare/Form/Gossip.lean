import Workshare.Form.Work
import Workshare.Gossip.Message

namespace Workshare

open Json

def MemberState.name : MemberState → String
  | .alive => "Alive"
  | .suspect => "Suspect"
  | .dead => "Dead"

def MemberState.ofName? (s : String) : Option MemberState :=
  MemberState.all.find? (·.name = s)

def MemberState.form : Form MemberState where
  shape := .choice (MemberState.all.map fun s => (s.name, none))
  toValue s := .str s.name
  ofValue?
    | .str s => MemberState.ofName? s
    | _ => none

def Member.form : Form Member where
  shape := .record [
    NodeId.form.field "id",
    SocketAddress.form.field "gossip_addr",
    SocketAddress.form.field "rpc_addr",
    MemberState.form.field "state",
    Form.count.field "incarnation"]
  toValue m := .obj [
    ("id", NodeId.form.toValue m.id),
    ("gossip_addr", SocketAddress.form.toValue m.gossipAddr),
    ("rpc_addr", SocketAddress.form.toValue m.rpcAddr),
    ("state", MemberState.form.toValue m.state),
    ("incarnation", Form.count.toValue m.incarnation)]
  ofValue? v := do
    return {
      id := ← NodeId.form.get? v "id"
      gossipAddr := ← SocketAddress.form.get? v "gossip_addr"
      rpcAddr := ← SocketAddress.form.get? v "rpc_addr"
      state := ← MemberState.form.get? v "state"
      incarnation := ← Form.count.get? v "incarnation" }

namespace GossipMessage

def pingFields : List Field := [
  NodeId.form.field "from", SocketAddress.form.field "rpc_addr", Form.count.field "incarnation"]

def ackFields : List Field := [
  NodeId.form.field "from", Form.count.field "incarnation", Member.form.list.field "members"]

def rumourFields : List Field := [
  NodeId.form.field "node_id", Form.count.field "incarnation"]

def rumour (node : NodeId) (incarnation : UInt64) : Value :=
  .obj [("node_id", NodeId.form.toValue node), ("incarnation", Form.count.toValue incarnation)]

def form : Form GossipMessage where
  shape := .choice [
    ("Ping", some (.record pingFields)),
    ("Ack", some (.record ackFields)),
    ("Join", some (.record [Member.form.field "node"])),
    ("Leave", some (.record [NodeId.form.field "node_id"])),
    ("Suspect", some (.record rumourFields)),
    ("Alive", some (.record rumourFields))]
  toValue
    | .ping sender rpc incarnation => .obj [("Ping", .obj [
        ("from", NodeId.form.toValue sender),
        ("rpc_addr", SocketAddress.form.toValue rpc),
        ("incarnation", Form.count.toValue incarnation)])]
    | .ack sender incarnation members => .obj [("Ack", .obj [
        ("from", NodeId.form.toValue sender),
        ("incarnation", Form.count.toValue incarnation),
        ("members", Member.form.list.toValue members)])]
    | .join node => .obj [("Join", .obj [("node", Member.form.toValue node)])]
    | .leave node => .obj [("Leave", .obj [("node_id", NodeId.form.toValue node)])]
    | .suspect node incarnation => .obj [("Suspect", rumour node incarnation)]
    | .alive node incarnation => .obj [("Alive", rumour node incarnation)]
  ofValue?
    | .obj [("Ping", v)] => do
      return .ping (← NodeId.form.get? v "from") (← SocketAddress.form.get? v "rpc_addr")
        (← Form.count.get? v "incarnation")
    | .obj [("Ack", v)] => do
      return .ack (← NodeId.form.get? v "from") (← Form.count.get? v "incarnation")
        (← Member.form.list.get? v "members")
    | .obj [("Join", v)] => do return .join (← Member.form.get? v "node")
    | .obj [("Leave", v)] => do return .leave (← NodeId.form.get? v "node_id")
    | .obj [("Suspect", v)] => do
      return .suspect (← NodeId.form.get? v "node_id") (← Form.count.get? v "incarnation")
    | .obj [("Alive", v)] => do
      return .alive (← NodeId.form.get? v "node_id") (← Form.count.get? v "incarnation")
    | _ => none

end GossipMessage

end Workshare
