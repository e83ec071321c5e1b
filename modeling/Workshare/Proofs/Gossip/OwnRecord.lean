import Workshare.Proofs.Gossip.Records

namespace Workshare

namespace GossipMessage

/-- The node in whose name a message speaks. What is suspected of a node is said by others. -/
def author? : GossipMessage → Option NodeId
  | .ping sender _ _ => some sender
  | .ack sender _ _ => some sender
  | .join node => some node.id
  | .leave node => some node
  | .suspect _ _ => none
  | .alive node _ => some node

/-- The member that introduces itself. -/
def joining? : GossipMessage → Option Member
  | .join node => some node
  | _ => none

/-- The node that takes its leave. -/
def leaving? : GossipMessage → Option NodeId
  | .leave node => some node
  | _ => none

theorem record_of_others {m : GossipMessage} {self : NodeId} (h : m.author? ≠ some self) (now : Nat)
    (src : SocketAddress) (r : Option Gossip.Known) : m.record self now src self r = r := by
  unfold record
  cases m with
  | ping sender rpc i => exact if_neg (by rintro rfl; exact h rfl)
  | ack sender i ms =>
    dsimp only
    rw [if_pos rfl]
    exact if_neg (by rintro rfl; exact h rfl)
  | join node => exact if_neg (by rintro rfl; exact h rfl)
  | leave node => exact if_neg (by rintro rfl; exact h rfl)
  | suspect node i => exact if_neg (by rintro ⟨_, other⟩; exact other rfl)
  | alive node i => exact if_neg (by rintro rfl; exact h rfl)

end GossipMessage

namespace Gossip

section Alive

variable {k : Known} (h : k.member.state = .alive) (now : Nat) (i : UInt64)

include h

theorem alive_heard : (Service.heard now i k).member.state = .alive := by
  unfold Service.heard
  split
  next => rfl
  next => exact h

theorem alive_answered : (Service.answered now i k).member.state = .alive := by
  unfold Service.answered
  split <;> exact h

theorem alive_vouched : (Service.vouched now i k).member.state = .alive := by
  unfold Service.vouched
  split
  next => rfl
  next =>
    split
    next => rfl
    next => exact h

/-- A node takes itself for alive until it hears itself introduced, or taking its leave. -/
theorem alive_record {m : GossipMessage} {self : NodeId} (hj : ∀ node, m.joining? = some node → node.id ≠ self)
    (hl : m.leaving? ≠ some self) {k' : Known} {src : SocketAddress}
    (hr : m.record self now src self (some k) = some k') : k'.member.state = .alive := by
  by_cases ha : m.author? = some self
  · cases m with
    | ping sender rpc i =>
      cases ha
      rw [GossipMessage.record, if_pos rfl] at hr
      cases hr
      exact alive_heard h now i
    | ack sender i ms =>
      cases ha
      rw [GossipMessage.record, if_pos rfl, if_pos rfl] at hr
      cases hr
      exact alive_answered h now i
    | join node => exact absurd (Option.some.inj ha) (hj node rfl)
    | leave node => exact absurd ha hl
    | suspect node i => cases ha
    | alive node i =>
      cases ha
      rw [GossipMessage.record, if_pos rfl] at hr
      cases hr
      exact alive_vouched h now i
  · rw [GossipMessage.record_of_others ha] at hr
    cases hr
    exact h

end Alive

namespace Occurrence

def message? : Occurrence → Option GossipMessage
  | .hears _ _ m => some m
  | .looks _ => none

/-- The record of a node that only others speak of. -/
theorem record_of_others {o : Occurrence} {self : NodeId} (h : ∀ m, o.message? = some m → m.author? ≠ some self)
    (r : Option Known) : o.record self self r = r := by
  cases o with
  | hears now src m => exact m.record_of_others (h m rfl) now src r
  | looks now => exact if_pos rfl

/-- A node does not forget itself. -/
theorem record_own (o : Occurrence) {self : NodeId} {k : Known} (hk : k.member.id = self) :
    ∃ k', o.record self self (some k) = some k' ∧ k'.member.id = self := by
  cases o with
  | hears now src m =>
    rcases joins_or_not m self with ⟨node, rfl, hn⟩ | hj
    · exact ⟨⟨node, some now⟩, if_pos hn.symm, hn⟩
    · obtain ⟨k', hr, card⟩ := card_record hj self now src k
      exact ⟨k', hr, (congrArg Prod.fst card).trans hk⟩
  | looks now => exact ⟨k, if_pos rfl, hk⟩

theorem card_own {o : Occurrence} {self : NodeId}
    (hj : ∀ m, o.message? = some m → ∀ node, m.joining? = some node → node.id ≠ self) (k : Known) :
    ∃ k', o.record self self (some k) = some k' ∧ k'.member.card = k.member.card := by
  cases o with
  | hears now src m => exact card_record (fun node e => hj m rfl node (by rw [e]; rfl)) self now src k
  | looks now => exact ⟨k, if_pos rfl, rfl⟩

theorem alive_own {o : Occurrence} {self : NodeId}
    (hj : ∀ m, o.message? = some m → ∀ node, m.joining? = some node → node.id ≠ self)
    (hl : ∀ m, o.message? = some m → m.leaving? ≠ some self) {k k' : Known} (hk : k.member.state = .alive)
    (hr : o.record self self (some k) = some k') : k'.member.state = .alive := by
  cases o with
  | hears now src m => exact alive_record hk now (hj m rfl) (hl m rfl) hr
  | looks now =>
    rw [record, if_pos rfl] at hr
    cases hr
    exact hk

end Occurrence

def messages (os : List Occurrence) : List GossipMessage :=
  os.filterMap (·.message?)

theorem mem_messages {os : List Occurrence} {o : Occurrence} (ho : o ∈ os) (m : GossipMessage)
    (hm : o.message? = some m) : m ∈ messages os :=
  List.mem_filterMap.mpr ⟨o, ho, hm⟩

namespace Service

theorem incarnation_run {os : List Occurrence} {s t : Service} (h : s.run os = .ok t) :
    t.incarnation.toNat = os.foldl (fun own o => o.claimed s.self.id own) s.incarnation.toNat := by
  induction os generalizing s with
  | nil => cases h; rfl
  | cons o os ih =>
    obtain ⟨step, ho, h⟩ := exists_of_run_cons h
    obtain ⟨hself, hinc, _⟩ := after_eq ho
    rw [ih h, hself, hinc, List.foldl_cons]

theorem own_run (self : Member) {P : Known → Prop} {os : List Occurrence}
    (keeps : ∀ o ∈ os, ∀ k, P k → ∃ k', o.record self.id self.id (some k) = some k' ∧ P k') {s t : Service}
    (hs : s.self = self) (own : ∃ k, s.get? self.id = some k ∧ P k) (h : s.run os = .ok t) :
    ∃ k, t.get? self.id = some k ∧ P k := by
  refine (run_keeps (P := fun u => u.self = self ∧ ∃ k, u.get? self.id = some k ∧ P k) ?_ ⟨hs, own⟩ h).2
  rintro o ho u step ⟨hu, k, hk, hP⟩ hstep
  obtain ⟨hself, _, hget⟩ := after_eq hstep
  obtain ⟨k', hr, hP'⟩ := keeps o ho k hP
  exact ⟨hself.trans hu, k', by rw [hget, hu, hk, hr], hP'⟩

/-- However a service has been addressed, it has a record of its own node, and publishes the node while it is alive
there, at the address recorded. Unless the node is introduced to itself, it is recorded at its own addresses; unless it
also hears that it takes its leave, as alive; and while it hears nothing in its own name, just as it introduces itself.
The incarnation that it claims is the next one after the highest at which it has heard itself suspected. -/
theorem own_record_of_run (id : NodeId) (gossipAddr rpcAddr : SocketAddress) (now : Nat) (os : List Occurrence)
    {s : Service} (h : (start id gossipAddr rpcAddr now).run os = .ok s) :
    s.incarnation.toNat = os.foldl (fun own o => o.claimed id own) 1 ∧
    ∃ k, s.get? id = some k ∧ k.member.id = id ∧
      (∀ a, (id, a) ∈ s.requestView ↔ k.member.state = .alive ∧ a = k.member.rpcAddr) ∧
      ((∀ m ∈ messages os, ∀ node, m.joining? = some node → node.id ≠ id) →
        k.member.gossipAddr = gossipAddr ∧ k.member.rpcAddr = rpcAddr ∧
        ((∀ m ∈ messages os, m.leaving? ≠ some id) → k.member.state = .alive)) ∧
      ((∀ m ∈ messages os, m.author? ≠ some id) → k.member = ⟨id, gossipAddr, rpcAddr, .alive, 1⟩) := by
  let self : Member := ⟨id, gossipAddr, rpcAddr, .alive, 1⟩
  have begun : (start id gossipAddr rpcAddr now).get? id = some ⟨self, some now⟩ := by
    rw [get?, start, Table.get?_insert, if_pos rfl]
  have first {P : Known → Prop} (hP : P ⟨self, some now⟩) :
      ∃ k, (start id gossipAddr rpcAddr now).get? self.id = some k ∧ P k := ⟨_, begun, hP⟩
  -- the more messages are left out, the more of the record stays; each part is an induction of its own
  obtain ⟨k, hk, hid⟩ := own_run self (P := fun k => k.member.id = id)
    (fun o _ k hk => o.record_own hk) rfl (first rfl) h
  obtain ⟨keyed, shown⟩ := (Shown.start id gossipAddr rpcAddr now).run h
  refine ⟨incarnation_run h, k, hk, hid, ?_, ?_, ?_⟩
  · intro a
    rw [shown, mem_alive keyed]
    constructor
    · rintro ⟨k', hk', live, rfl⟩
      cases hk.symm.trans hk'
      exact ⟨live, rfl⟩
    · rintro ⟨live, rfl⟩
      exact ⟨k, hk, live, rfl⟩
  · intro hj
    obtain ⟨k', hk', card⟩ := own_run self (P := fun k => k.member.card = self.card)
      (fun o ho k hk => by
        obtain ⟨k', hr, card⟩ := Occurrence.card_own (fun m hm => hj m (mem_messages ho m hm)) k
        exact ⟨k', hr, card.trans hk⟩) rfl (first rfl) h
    cases hk.symm.trans hk'
    refine ⟨congrArg (·.2.1) card, congrArg (·.2.2) card, fun hl => ?_⟩
    obtain ⟨k', hk', live⟩ := own_run self (P := fun k => k.member.state = .alive)
      (fun o ho k hk => by
        have joined := fun m hm => hj m (mem_messages ho m hm)
        obtain ⟨k', hr, _⟩ := Occurrence.card_own joined k
        exact ⟨k', hr, Occurrence.alive_own joined (fun m hm => hl m (mem_messages ho m hm)) hk hr⟩) rfl (first rfl) h
    cases hk.symm.trans hk'
    exact live
  · intro ha
    obtain ⟨k', hk', same⟩ := own_run self (P := fun k => k.member = self)
      (fun o ho k hk => ⟨k, Occurrence.record_of_others (fun m hm => ha m (mem_messages ho m hm)) _, hk⟩) rfl (first rfl) h
    cases hk.symm.trans hk'
    exact same

/-- A peer suspects the node, and pings it afterwards. -/
def suspectedOnce : List Occurrence :=
  [.hears 1 (.v4 2 7946) (.suspect ⟨"a"⟩ 1), .hears 2 (.v4 2 7946) (.ping ⟨"b"⟩ (.v4 2 7947) 1), .looks 3]

theorem own_record_of_run_suspected :
    ∃ s k, (start ⟨"a"⟩ (.v4 1 7946) (.v4 1 7947) 0).run suspectedOnce = .ok s ∧ s.incarnation.toNat = 2 ∧
      s.get? ⟨"a"⟩ = some k ∧ k.member = ⟨⟨"a"⟩, .v4 1 7946, .v4 1 7947, .alive, 1⟩ ∧
      (⟨"a"⟩, .v4 1 7947) ∈ s.requestView := by
  obtain ⟨s, h⟩ : ∃ s, (start ⟨"a"⟩ (.v4 1 7946) (.v4 1 7947) 0).run suspectedOnce = .ok s := ⟨_, rfl⟩
  obtain ⟨claim, k, hk, _, shown, _, same⟩ := own_record_of_run _ _ _ _ _ h
  have member := same (by decide)
  exact ⟨s, k, h, claim, hk, member, (shown _).mpr (by rw [member]; exact ⟨rfl, rfl⟩)⟩

/-- A node may lose itself. One that hears its own leave publishes itself no more, and one that refutes a suspicion
claims an incarnation that its record of itself does not have. -/
theorem own_record_lost :
    (¬ ∀ id gossipAddr rpcAddr now os s, (start id gossipAddr rpcAddr now).run os = .ok s →
      (id, rpcAddr) ∈ s.requestView) ∧
    ¬ ∀ id gossipAddr rpcAddr now os s, (start id gossipAddr rpcAddr now).run os = .ok s →
      ∃ k, s.get? id = some k ∧ k.member = ⟨id, gossipAddr, rpcAddr, .alive, s.incarnation⟩ := by
  constructor
  · intro listed
    have gone := listed ⟨"a"⟩ (.v4 1 7946) (.v4 1 7947) 0 [.hears 1 (.v4 2 7946) (.leave ⟨"a"⟩)] _ rfl
    exact absurd gone (by decide)
  · intro recorded
    obtain ⟨k, hk, member⟩ := recorded ⟨"a"⟩ (.v4 1 7946) (.v4 1 7947) 0 suspectedOnce _ rfl
    have stale : k.member.incarnation = 1 := by cases hk; rfl
    rw [member] at stale
    exact absurd stale (by decide)

end Service

end Gossip

end Workshare
