import Workshare.Abort
import Workshare.Gossip.Message

namespace Workshare.Gossip

/-- A member and when it was last heard of. -/
structure Known where
  member : Member
  lastSeen : Option Nat
  deriving DecidableEq, Repr

structure Letter where
  target : SocketAddress
  message : GossipMessage
  deriving DecidableEq, Repr

/-- The members that a node has heard of, the word about each, and the list of those that are alive, which it
publishes. Instants are milliseconds. -/
structure Service where
  /-- The node as it introduces itself. -/
  self : Member
  members : Table NodeId Known
  /-- The incarnation that the node claims for itself. -/
  incarnation : UInt64
  /-- The published members. -/
  view : List Member
  deriving DecidableEq

/-- Silence that makes a member suspect. -/
def suspectAfter : Nat := 5000

/-- Silence that makes a suspect dead. -/
def deadAfter : Nat := 10000

def detectionInterval : Nat := 2000

def pingInterval : Nat := 500

namespace Service

def start (id : NodeId) (gossipAddr rpcAddr : SocketAddress) (now : Nat) : Service :=
  let self : Member := ⟨id, gossipAddr, rpcAddr, .alive, 1⟩
  ⟨self, Table.empty.insert id ⟨self, some now⟩, 1, [self]⟩

/-- How a node introduces itself to the seeds of its group. -/
def introductions (s : Service) (seeds : List SocketAddress) : List Letter :=
  seeds.map fun seed => ⟨seed, .join s.self⟩

def get? (s : Service) (n : NodeId) : Option Known :=
  s.members.get? n

def all (s : Service) : List Member :=
  s.members.entries.map (·.2.member)

def alive (s : Service) : List Member :=
  s.all.filter (·.state = .alive)

def livePeers (s : Service) : List Member :=
  s.alive.filter (·.id ≠ s.self.id)

def toPeers (s : Service) (m : GossipMessage) : List Letter :=
  s.livePeers.map fun p => ⟨p.gossipAddr, m⟩

def update (s : Service) (n : NodeId) (f : Known → Known) : Service :=
  match s.members.get? n with
  | some k => { s with members := s.members.insert n (f k) }
  | none => s

def insert (s : Service) (k : Known) : Service :=
  { s with members := s.members.insert k.member.id k }

/-- Two members look the same to those who only send requests. -/
def sameAddress (a b : Member) : Bool :=
  a.id = b.id && a.rpcAddr = b.rpcAddr

def sameView (old new : List Member) : Bool :=
  old.length = new.length && (old.zip new).all fun (a, b) => sameAddress a b

/-- Publishes who is alive, and whether that is news. -/
def publish (s : Service) : Service × Bool :=
  if sameView s.view s.alive then (s, false) else ({ s with view := s.alive }, true)

/-- A sign of life; a higher incarnation is alive whatever was said before. -/
def heard (now : Nat) (incarnation : UInt64) (k : Known) : Known :=
  if k.member.incarnation < incarnation then
    ⟨{ k.member with state := .alive, incarnation := incarnation }, some now⟩
  else { k with lastSeen := some now }

def onPing (s : Service) (now : Nat) (src : SocketAddress) (sender : NodeId) (rpc : SocketAddress)
    (incarnation : UInt64) : Service × List Letter :=
  let s :=
    if s.members.contains sender then s.update sender (heard now incarnation)
    else s.insert ⟨⟨sender, src, rpc, .alive, incarnation⟩, some now⟩
  (s, [⟨src, .ack s.self.id s.incarnation s.all⟩])

/-- The sender of a list of members shows a sign of life, which says nothing of its state. -/
def answered (now : Nat) (incarnation : UInt64) (k : Known) : Known :=
  if k.member.incarnation < incarnation then
    ⟨{ k.member with incarnation := incarnation }, some now⟩
  else { k with lastSeen := some now }

/-- Another node's word about a member. A higher incarnation counts; at the same one only a suspicion is
taken back. -/
def reconcile (now : Nat) (m : Member) (k : Known) : Known :=
  if k.member.incarnation < m.incarnation then
    ⟨{ k.member with state := m.state, incarnation := m.incarnation }, some now⟩
  else if m.incarnation = k.member.incarnation && m.state = .alive && k.member.state = .suspect then
    ⟨{ k.member with state := .alive }, some now⟩
  else k

/-- Nobody tells a node about itself. -/
def merge (now : Nat) (s : Service) (m : Member) : Service :=
  if m.id = s.self.id then s
  else if s.members.contains m.id then s.update m.id (reconcile now m)
  else s.insert ⟨m, some now⟩

def onAck (s : Service) (now : Nat) (sender : NodeId) (incarnation : UInt64) (members : List Member) :
    Service :=
  members.foldl (merge now) (s.update sender (answered now incarnation))

/-- A suspicion counts against a live member, unless it is about an older incarnation. -/
def suspected (incarnation : UInt64) (k : Known) : Known :=
  if k.member.incarnation ≤ incarnation && k.member.state = .alive then
    { k with member := { k.member with state := .suspect, incarnation := incarnation } }
  else k

/-- A node that hears itself suspected claims the next incarnation and says so; there is none after the
last one. -/
def refute (s : Service) (incarnation : UInt64) : Except Abort (Service × List Letter) :=
  if incarnation < s.incarnation then .ok (s, [])
  else if incarnation.toNat + 1 < UInt64.size then
    let s := { s with incarnation := incarnation + 1 }
    .ok (s, s.toPeers (.alive s.self.id s.incarnation))
  else .error .sumOverflow

/-- Word that a member is alive: at a higher incarnation, or against a suspicion at the same one. -/
def vouched (now : Nat) (incarnation : UInt64) (k : Known) : Known :=
  if k.member.incarnation < incarnation then
    ⟨{ k.member with state := .alive, incarnation := incarnation }, some now⟩
  else if incarnation = k.member.incarnation && k.member.state = .suspect then
    ⟨{ k.member with state := .alive }, some now⟩
  else k

def departed (k : Known) : Known :=
  { k with member := { k.member with state := .dead } }

/-- What one message changes and sends, before the view is published. -/
def handle (s : Service) (now : Nat) (src : SocketAddress) :
    GossipMessage → Except Abort (Service × List Letter)
  | .ping sender rpc incarnation => .ok (s.onPing now src sender rpc incarnation)
  | .ack sender incarnation members => .ok (s.onAck now sender incarnation members, [])
  | .join node => .ok (s.insert ⟨node, some now⟩, [])
  | .leave node => .ok (s.update node departed, [])
  | .suspect node incarnation =>
    if node = s.self.id then s.refute incarnation else .ok (s.update node (suspected incarnation), [])
  | .alive node incarnation => .ok (s.update node (vouched now incarnation), [])

/-- A service after a step, with what the step sends and whether it published a new view. -/
structure Step where
  service : Service
  letters : List Letter
  published : Bool

/-- The view is published after every message. -/
def receive (s : Service) (now : Nat) (src : SocketAddress) (m : GossipMessage) : Except Abort Step := do
  let (s, letters) ← s.handle now src m
  let (s, published) := s.publish
  return ⟨s, letters, published⟩

/-- Bytes that are no message are ignored. -/
def receiveBytes (s : Service) (now : Nat) (src : SocketAddress) (bytes : List UInt8) :
    Except Abort Step :=
  match GossipMessage.codec.decode bytes with
  | .ok m => s.receive now src m
  | .error _ => .ok ⟨s, [], false⟩

/-- What a look at a member makes of its silence. One that was never heard of is heard of now. -/
def judge (now : Nat) (k : Known) : Known :=
  match k.lastSeen with
  | none => { k with lastSeen := some now }
  | some seen =>
    match k.member.state with
    | .alive =>
      if suspectAfter < now - seen then { k with member := { k.member with state := .suspect } } else k
    | .suspect =>
      if deadAfter < now - seen then { k with member := { k.member with state := .dead } } else k
    | .dead => k

/-- The members that a look makes suspect. -/
def newSuspects (s : Service) (now : Nat) : List Member :=
  s.members.entries.filterMap fun (n, k) =>
    if n ≠ s.self.id && k.member.state = .alive && (judge now k).member.state = .suspect then
      some (judge now k).member
    else none

/-- Looks at every other member; what it suspects it says to the peers that are left. -/
def detect (s : Service) (now : Nat) : Step :=
  let suspects := s.newSuspects now
  let s := { s with members := s.members.mapValues fun n k => if n = s.self.id then k else judge now k }
  let (s, published) := s.publish
  ⟨s, suspects.flatMap fun m => s.toPeers (.suspect m.id m.incarnation), published⟩

def ping (s : Service) (peer : Member) : Letter :=
  ⟨peer.gossipAddr, .ping s.self.id s.self.rpcAddr s.incarnation⟩

/-- The pings of which a heartbeat sends one. -/
def heartbeats (s : Service) : List Letter :=
  s.livePeers.map s.ping

/-- What a node says when it leaves. -/
def farewell (s : Service) : List Letter :=
  s.toPeers (.leave s.self.id)

def requestView (s : Service) : List (NodeId × SocketAddress) :=
  s.view.map fun m => (m.id, m.rpcAddr)

end Service

end Workshare.Gossip
