import Workshare.Gossip.Service
import Workshare.Proofs.Results

namespace Workshare

/-- Who a member is and where it is reached. -/
def Member.card (m : Member) : NodeId × SocketAddress × SocketAddress :=
  (m.id, m.gossipAddr, m.rpcAddr)

namespace Gossip

/-- What a service has recorded of a member when another node has told of it. -/
def told (now : Nat) (r : Option Known) (m : Member) : Option Known :=
  some (r.elim ⟨m, some now⟩ (Service.reconcile now m))

/-- The entries of a list of members that are about one of them. -/
def about (n : NodeId) (ms : List Member) : List Member :=
  ms.filter (·.id = n)

end Gossip

namespace GossipMessage

open Gossip Gossip.Service

/-- What becomes of the record of member `n` when the service of node `self` receives a message. -/
def record (self : NodeId) (now : Nat) (src : SocketAddress) (n : NodeId) (r : Option Known) :
    GossipMessage → Option Known
  | .ping sender rpc i => if n = sender then some (r.elim ⟨⟨n, src, rpc, .alive, i⟩, some now⟩ (heard now i)) else r
  | .ack sender i ms =>
    let r := if n = sender then r.map (answered now i) else r
    if n = self then r else (about n ms).foldl (told now) r
  | .join node => if n = node.id then some ⟨node, some now⟩ else r
  | .leave node => if n = node then r.map departed else r
  | .suspect node i => if n = node ∧ n ≠ self then r.map (suspected i) else r
  | .alive node i => if n = node then r.map (vouched now i) else r

/-- The incarnation that a node claims after a message. Only a suspicion of the node itself raises it. -/
def claimed (self : NodeId) (own : Nat) : GossipMessage → Nat
  | .suspect node i => if node = self then max own (i.toNat + 1) else own
  | _ => own

end GossipMessage

namespace Gossip

/-- What happens to a gossip service. -/
inductive Occurrence
  | hears (now : Nat) (src : SocketAddress) (message : GossipMessage)
  | looks (now : Nat)

namespace Occurrence

def record (self n : NodeId) (r : Option Known) : Occurrence → Option Known
  | .hears now src m => m.record self now src n r
  | .looks now => if n = self then r else r.map (Service.judge now)

def claimed (self : NodeId) (own : Nat) : Occurrence → Nat
  | .hears _ _ m => m.claimed self own
  | .looks _ => own

end Occurrence

section Cards

variable (now : Nat) (i : UInt64) (k : Known)

theorem card_heard : (Service.heard now i k).member.card = k.member.card := by
  unfold Service.heard
  split <;> rfl

theorem card_answered : (Service.answered now i k).member.card = k.member.card := by
  unfold Service.answered
  split <;> rfl

theorem card_reconcile (m : Member) : (Service.reconcile now m k).member.card = k.member.card := by
  unfold Service.reconcile
  split
  next => rfl
  next => split <;> rfl

theorem card_suspected : (Service.suspected i k).member.card = k.member.card := by
  unfold Service.suspected
  split <;> rfl

theorem card_vouched : (Service.vouched now i k).member.card = k.member.card := by
  unfold Service.vouched
  split
  next => rfl
  next => split <;> rfl

theorem card_judge : (Service.judge now k).member.card = k.member.card := by
  unfold Service.judge
  split
  next => rfl
  next =>
    split
    next => split <;> rfl
    next => split <;> rfl
    next => rfl

end Cards

theorem card_foldl_told (now : Nat) (ms : List Member) (k : Known) :
    ∃ k', ms.foldl (told now) (some k) = some k' ∧ k'.member.card = k.member.card := by
  induction ms generalizing k with
  | nil => exact ⟨k, rfl, rfl⟩
  | cons m ms ih =>
    obtain ⟨k', hk, card⟩ := ih (Service.reconcile now m k)
    exact ⟨k', hk, card.trans (card_reconcile now k m)⟩

theorem joins_or_not (m : GossipMessage) (n : NodeId) :
    (∃ node, m = .join node ∧ node.id = n) ∨ ∀ node, m = .join node → node.id ≠ n := by
  by_cases uninvited : ∀ node, m = .join node → node.id ≠ n
  · exact .inr uninvited
  · simp only [Classical.not_forall, Classical.not_not] at uninvited
    obtain ⟨node, joins, named⟩ := uninvited
    exact .inl ⟨node, joins, named⟩

theorem card_record {m : GossipMessage} {n : NodeId} (h : ∀ node, m = .join node → node.id ≠ n) (self : NodeId)
    (now : Nat) (src : SocketAddress) (k : Known) :
    ∃ k', m.record self now src n (some k) = some k' ∧ k'.member.card = k.member.card := by
  unfold GossipMessage.record
  cases m with
  | ping sender rpc i =>
    dsimp only
    split
    next => exact ⟨_, rfl, card_heard now i k⟩
    next => exact ⟨k, rfl, rfl⟩
  | ack sender i ms =>
    dsimp only
    have first : ∃ k', (if n = sender then (some k).map (Service.answered now i) else some k) = some k' ∧
        k'.member.card = k.member.card := by
      split
      next => exact ⟨_, rfl, card_answered now i k⟩
      next => exact ⟨k, rfl, rfl⟩
    obtain ⟨k', hk, card⟩ := first
    rw [hk]
    split
    next => exact ⟨k', rfl, card⟩
    next =>
      obtain ⟨k'', hk', card'⟩ := card_foldl_told now (about n ms) k'
      exact ⟨k'', hk', card'.trans card⟩
  | join node => exact ⟨k, if_neg (Ne.symm (h node rfl)), rfl⟩
  | leave node =>
    dsimp only
    split <;> exact ⟨_, rfl, rfl⟩
  | suspect node i =>
    dsimp only
    split
    next => exact ⟨_, rfl, card_suspected i k⟩
    next => exact ⟨k, rfl, rfl⟩
  | alive node i =>
    dsimp only
    split
    next => exact ⟨_, rfl, card_vouched now i k⟩
    next => exact ⟨k, rfl, rfl⟩

theorem id_foldl_told {now : Nat} {n : NodeId} {ms : List Member} {k : Known}
    (h : (about n ms).foldl (told now) none = some k) : k.member.id = n := by
  cases hms : about n ms with
  | nil => rw [hms] at h; cases h
  | cons m rest =>
    obtain ⟨k', hk, card⟩ := card_foldl_told now rest ⟨m, some now⟩
    have hm : m ∈ about n ms := hms ▸ List.mem_cons_self
    rw [hms] at h
    cases hk.symm.trans h
    exact (congrArg Prod.fst card).trans (of_decide_eq_true (List.mem_filter.mp hm).2)

theorem id_record {m : GossipMessage} {self n : NodeId} {now : Nat} {src : SocketAddress} {r : Option Known}
    (hr : ∀ k, r = some k → k.member.id = n) {k : Known} (h : m.record self now src n r = some k) : k.member.id = n := by
  cases r with
  | some old =>
    rcases joins_or_not m n with ⟨node, rfl, hn⟩ | hj
    · rw [GossipMessage.record, if_pos hn.symm] at h
      cases h
      exact hn
    · obtain ⟨k', hk, card⟩ := card_record hj self now src old
      cases hk.symm.trans h
      exact (congrArg Prod.fst card).trans (hr old rfl)
  | none =>
    cases m with
    | ping sender rpc i =>
      rw [GossipMessage.record] at h
      split at h <;> cases h
      rfl
    | ack sender i ms =>
      rw [GossipMessage.record, Option.map_none, ite_self] at h
      split at h
      next => cases h
      next => exact id_foldl_told h
    | join node =>
      rw [GossipMessage.record] at h
      split at h <;> cases h
      next hn => exact hn.symm
    | leave node => rw [GossipMessage.record, Option.map_none, ite_self] at h; cases h
    | suspect node i => rw [GossipMessage.record, Option.map_none, ite_self] at h; cases h
    | alive node i => rw [GossipMessage.record, Option.map_none, ite_self] at h; cases h

namespace Service

section Lookups

variable (s : Service) (n p : NodeId)

theorem get?_update (f : Known → Known) :
    (s.update n f).get? p = if p = n then (s.get? p).map f else s.get? p := by
  unfold update get?
  split
  next k hk =>
    rw [Table.get?_insert]
    split
    next h => rw [h, hk]; rfl
    next => rfl
  next hk =>
    split
    next h => rw [h, hk]; rfl
    next => rfl

theorem get?_insert (k : Known) : (s.insert k).get? p = if p = k.member.id then some k else s.get? p :=
  Table.get?_insert _ _ _ _

theorem get?_of_contains (h : s.members.contains n) : ∃ k, s.get? n = some k :=
  Option.isSome_iff_exists.mp h

theorem get?_of_not_contains (h : ¬ s.members.contains n) : s.get? n = none := by
  rw [Bool.not_eq_true] at h
  exact Table.get?_eq_none_iff.mpr h

theorem self_update (f : Known → Known) : (s.update n f).self = s.self := by
  unfold update
  split <;> rfl

theorem incarnation_update (f : Known → Known) : (s.update n f).incarnation = s.incarnation := by
  unfold update
  split <;> rfl

theorem merge_eq (now : Nat) (m : Member) :
    (merge now s m).self = s.self ∧ (merge now s m).incarnation = s.incarnation ∧
      ∀ p, (merge now s m).get? p = if p = m.id ∧ p ≠ s.self.id then told now (s.get? p) m else s.get? p := by
  unfold merge
  split
  next own =>
    refine ⟨rfl, rfl, fun p => (if_neg ?_).symm⟩
    rintro ⟨rfl, h⟩
    exact h own
  next other =>
    split
    next known =>
      refine ⟨self_update _ _ _, incarnation_update _ _ _, fun p => ?_⟩
      rw [get?_update]
      by_cases hp : p = m.id
      · subst hp
        obtain ⟨k, hk⟩ := get?_of_contains s m.id known
        rw [if_pos rfl, if_pos ⟨rfl, other⟩, hk]
        rfl
      · rw [if_neg hp, if_neg fun h => hp h.1]
    next new =>
      refine ⟨rfl, rfl, fun p => ?_⟩
      rw [get?_insert]
      by_cases hp : p = m.id
      · subst hp
        rw [if_pos rfl, if_pos ⟨rfl, other⟩, get?_of_not_contains s m.id new]
        rfl
      · rw [if_neg hp, if_neg fun h => hp h.1]

end Lookups

theorem foldl_merge_eq (now : Nat) (ms : List Member) (s : Service) :
    (ms.foldl (merge now) s).self = s.self ∧ (ms.foldl (merge now) s).incarnation = s.incarnation ∧
      ∀ p, (ms.foldl (merge now) s).get? p =
        if p = s.self.id then s.get? p else (about p ms).foldl (told now) (s.get? p) := by
  induction ms generalizing s with
  | nil => exact ⟨rfl, rfl, fun p => by simp [about]⟩
  | cons m ms ih =>
    obtain ⟨hself, hinc, hget⟩ := merge_eq s now m
    obtain ⟨iself, iinc, iget⟩ := ih (merge now s m)
    refine ⟨iself.trans hself, iinc.trans hinc, fun p => ?_⟩
    rw [List.foldl_cons, iget, hself, hget]
    by_cases own : p = s.self.id
    · rw [if_pos own, if_pos own, if_neg fun h => h.2 own]
    · rw [if_neg own, if_neg own]
      by_cases hp : m.id = p
      · simp [about, hp, own]
      · simp [about, hp, Ne.symm hp]

theorem refute_eq {s t : Service} {i : UInt64} {letters : List Letter} (h : s.refute i = .ok (t, letters)) :
    t.self = s.self ∧ t.incarnation.toNat = max s.incarnation.toNat (i.toNat + 1) ∧ t.members = s.members := by
  unfold refute at h
  split at h
  next old =>
    cases h
    have below := UInt64.lt_iff_toNat_lt.mp old
    exact ⟨rfl, by omega, rfl⟩
  next news =>
    split at h
    next room =>
      cases h
      have above := UInt64.le_iff_toNat_le.mp (UInt64.not_lt.mp news)
      refine ⟨rfl, ?_, rfl⟩
      show (i + 1).toNat = _
      rw [UInt64.toNat_add, UInt64.toNat_one, Nat.mod_eq_of_lt room]
      omega
    next => cases h

theorem onPing_eq (s : Service) (now : Nat) (src : SocketAddress) (sender : NodeId) (rpc : SocketAddress) (i : UInt64) :
    (s.onPing now src sender rpc i).1.self = s.self ∧ (s.onPing now src sender rpc i).1.incarnation = s.incarnation ∧
      ∀ p, (s.onPing now src sender rpc i).1.get? p =
        (GossipMessage.ping sender rpc i).record s.self.id now src p (s.get? p) := by
  unfold onPing GossipMessage.record
  dsimp only
  split
  next known =>
    refine ⟨self_update _ _ _, incarnation_update _ _ _, fun p => ?_⟩
    rw [get?_update]
    split
    next h =>
      subst h
      obtain ⟨k, hk⟩ := get?_of_contains s p known
      rw [hk]
      rfl
    next => rfl
  next new =>
    refine ⟨rfl, rfl, fun p => ?_⟩
    rw [get?_insert]
    dsimp only
    split
    next h =>
      subst h
      rw [get?_of_not_contains s p new]
      rfl
    next => rfl

theorem onAck_eq (s : Service) (now : Nat) (src : SocketAddress) (sender : NodeId) (i : UInt64) (ms : List Member) :
    (s.onAck now sender i ms).self = s.self ∧ (s.onAck now sender i ms).incarnation = s.incarnation ∧
      ∀ p, (s.onAck now sender i ms).get? p = (GossipMessage.ack sender i ms).record s.self.id now src p (s.get? p) := by
  obtain ⟨hself, hinc, hget⟩ := foldl_merge_eq now ms (s.update sender (answered now i))
  refine ⟨hself.trans (self_update _ _ _), hinc.trans (incarnation_update _ _ _), fun p => ?_⟩
  rw [onAck, hget, self_update, get?_update]
  rfl

/-- A message moves the record of each member by itself, and the node introduces itself as before. -/
theorem handle_eq {s t : Service} {now : Nat} {src : SocketAddress} {m : GossipMessage} {letters : List Letter}
    (h : s.handle now src m = .ok (t, letters)) :
    t.self = s.self ∧ t.incarnation.toNat = m.claimed s.self.id s.incarnation.toNat ∧
      ∀ n, t.get? n = m.record s.self.id now src n (s.get? n) := by
  have updated : ∀ node f, (s.update node f).self = s.self ∧
      (s.update node f).incarnation.toNat = s.incarnation.toNat := fun node f =>
    ⟨self_update s node f, congrArg _ (incarnation_update s node f)⟩
  cases m with
  | ping sender rpc i =>
    cases h
    obtain ⟨hself, hinc, hget⟩ := onPing_eq s now src sender rpc i
    exact ⟨hself, congrArg _ hinc, hget⟩
  | ack sender i ms =>
    cases h
    obtain ⟨hself, hinc, hget⟩ := onAck_eq s now src sender i ms
    exact ⟨hself, congrArg _ hinc, hget⟩
  | join node => cases h; exact ⟨rfl, rfl, fun n => get?_insert s n _⟩
  | leave node => cases h; exact ⟨(updated _ _).1, (updated _ _).2, fun n => get?_update s node n _⟩
  | suspect node i =>
    simp only [handle] at h
    split at h
    next own =>
      obtain ⟨hself, hinc, hmembers⟩ := refute_eq h
      refine ⟨hself, hinc.trans (if_pos own).symm, fun n => ?_⟩
      rw [GossipMessage.record, if_neg, get?, hmembers, get?]
      rintro ⟨rfl, other⟩
      exact other own
    next other =>
      cases h
      refine ⟨(updated _ _).1, (updated _ _).2.trans (if_neg other).symm, fun n => ?_⟩
      rw [get?_update, GossipMessage.record]
      by_cases hn : n = node
      · rw [if_pos hn, if_pos ⟨hn, hn ▸ other⟩]
      · rw [if_neg hn, if_neg fun h => hn h.1]
  | alive node i => cases h; exact ⟨(updated _ _).1, (updated _ _).2, fun n => get?_update s node n _⟩

theorem publish_eq (s : Service) :
    s.publish.1.self = s.self ∧ s.publish.1.incarnation = s.incarnation ∧ s.publish.1.members = s.members := by
  unfold publish
  split <;> exact ⟨rfl, rfl, rfl⟩

theorem map_eq_of_sameView {old new : List Member} (h : sameView old new) :
    old.map (fun m => (m.id, m.rpcAddr)) = new.map (fun m => (m.id, m.rpcAddr)) := by
  obtain ⟨len, same⟩ := Bool.and_eq_true_iff.mp h
  replace len := of_decide_eq_true len
  clear h
  induction old generalizing new with
  | nil => rw [List.eq_nil_of_length_eq_zero len.symm]
  | cons a old ih =>
    cases new with
    | nil => cases len
    | cons b new =>
      rw [List.zip_cons_cons, List.all_cons, Bool.and_eq_true] at same
      obtain ⟨hid, hrpc⟩ := Bool.and_eq_true_iff.mp same.1
      rw [List.map_cons, List.map_cons, of_decide_eq_true hid, of_decide_eq_true hrpc, ih same.2 (Nat.succ.inj len)]

/-- The view that is published lists the members that are alive. -/
theorem requestView_publish (s : Service) :
    s.publish.1.requestView = s.alive.map fun m => (m.id, m.rpcAddr) := by
  unfold publish requestView
  split
  next same => exact map_eq_of_sameView same
  next => rfl

def after (s : Service) : Occurrence → Except Abort Step
  | .hears now src m => s.receive now src m
  | .looks now => .ok (s.detect now)

def run (s : Service) (os : List Occurrence) : Except Abort Service :=
  os.foldlM (fun s o => (s.after o).map (·.service)) s

theorem receive_eq (s : Service) (now : Nat) (src : SocketAddress) (m : GossipMessage) :
    s.receive now src m = (s.handle now src m).map fun r => ⟨r.1.publish.1, r.2, r.1.publish.2⟩ := by
  unfold receive
  cases s.handle now src m <;> rfl

theorem receive_ok {s : Service} {now : Nat} {src : SocketAddress} {m : GossipMessage} {step : Step}
    (h : s.receive now src m = .ok step) :
    ∃ t, s.handle now src m = .ok (t, step.letters) ∧ step.service = t.publish.1 := by
  rw [receive_eq] at h
  obtain ⟨r, handled, rfl⟩ := Except.exists_of_map h
  exact ⟨r.1, handled, rfl⟩

def judged (s : Service) (now : Nat) : Service :=
  { s with members := s.members.mapValues fun n k => if n = s.self.id then k else judge now k }

theorem get?_judged (s : Service) (now : Nat) (n : NodeId) :
    (s.judged now).get? n = if n = s.self.id then s.get? n else (s.get? n).map (judge now) := by
  rw [judged, get?, Table.get?_mapValues]
  by_cases hn : n = s.self.id
  · simp [hn, get?]
  · simp [hn, get?]

/-- Whatever happens, the view is published last. -/
theorem after_published {s : Service} {o : Occurrence} {step : Step} (h : s.after o = .ok step) :
    ∃ t : Service, step.service = t.publish.1 ∧ t.self = s.self ∧
      t.incarnation.toNat = o.claimed s.self.id s.incarnation.toNat ∧
      ∀ n, t.get? n = o.record s.self.id n (s.get? n) := by
  cases o with
  | hears now src m =>
    obtain ⟨t, handled, published⟩ := receive_ok h
    exact ⟨t, published, handle_eq handled⟩
  | looks now =>
    cases h
    exact ⟨s.judged now, rfl, rfl, rfl, get?_judged s now⟩

/-- Whatever happens moves the record of each member by itself, and the node introduces itself as before. -/
theorem after_eq {s : Service} {o : Occurrence} {step : Step} (h : s.after o = .ok step) :
    step.service.self = s.self ∧ step.service.incarnation.toNat = o.claimed s.self.id s.incarnation.toNat ∧
      ∀ n, step.service.get? n = o.record s.self.id n (s.get? n) := by
  obtain ⟨t, published, hself, hinc, hget⟩ := after_published h
  obtain ⟨pself, pinc, pmembers⟩ := publish_eq t
  rw [published, pself, pinc]
  refine ⟨hself, hinc, fun n => ?_⟩
  rw [get?, pmembers]
  exact hget n

theorem run_cons (s : Service) (o : Occurrence) (os : List Occurrence) :
    s.run (o :: os) = (s.after o).bind fun step => step.service.run os := by
  unfold run
  rw [List.foldlM_cons]
  cases s.after o <;> rfl

theorem exists_of_run_cons {s t : Service} {o : Occurrence} {os : List Occurrence} (h : s.run (o :: os) = .ok t) :
    ∃ step, s.after o = .ok step ∧ step.service.run os = .ok t := by
  rw [run_cons] at h
  exact Except.exists_of_bind h

theorem run_keeps {P : Service → Prop} {os : List Occurrence}
    (keeps : ∀ o ∈ os, ∀ s step, P s → s.after o = .ok step → P step.service) {s t : Service} (hs : P s)
    (h : s.run os = .ok t) : P t := by
  refine Except.foldlM_keeps (fun o ho s s' hs next => ?_) hs h
  obtain ⟨step, first, rfl⟩ := Except.exists_of_map next
  exact keeps o ho s step hs first

theorem self_run {s t : Service} {os : List Occurrence} (h : s.run os = .ok t) : t.self = s.self :=
  run_keeps (P := fun u => u.self = s.self) (fun _ _ _ _ hu ho => (after_eq ho).1.trans hu) rfl h

/-- Every record is under the name of its member. -/
def Keyed (s : Service) : Prop :=
  ∀ n k, s.get? n = some k → k.member.id = n

theorem Keyed.start (id : NodeId) (gossipAddr rpcAddr : SocketAddress) (now : Nat) :
    (start id gossipAddr rpcAddr now).Keyed := by
  intro n k h
  rw [get?, Service.start, Table.get?_insert] at h
  split at h
  next hn => cases h; exact hn.symm
  next => cases h

theorem Keyed.after {s : Service} (hs : s.Keyed) {o : Occurrence} {step : Step} (h : s.after o = .ok step) :
    step.service.Keyed := by
  intro n k hk
  rw [(after_eq h).2.2] at hk
  cases o with
  | hears now src m => exact id_record (hs n) hk
  | looks now =>
    simp only [Occurrence.record] at hk
    split at hk
    next => exact hs n k hk
    next =>
      obtain ⟨old, hold, rfl⟩ := Option.map_eq_some_iff.mp hk
      exact (congrArg Prod.fst (card_judge now old)).trans (hs n old hold)

theorem mem_alive {s : Service} (hs : s.Keyed) {n : NodeId} {a : SocketAddress} :
    (n, a) ∈ s.alive.map (fun m => (m.id, m.rpcAddr)) ↔
      ∃ k, s.get? n = some k ∧ k.member.state = .alive ∧ k.member.rpcAddr = a := by
  simp only [alive, all, List.mem_map, List.mem_filter, decide_eq_true_eq, Prod.mk.injEq]
  constructor
  · rintro ⟨_, ⟨⟨⟨p, k⟩, he, rfl⟩, live⟩, rfl, rfl⟩
    have found : s.get? p = some k := Table.get?_eq_some_iff.mpr he
    exact ⟨k, by rw [hs p k found, found], live, rfl⟩
  · rintro ⟨k, found, live, rfl⟩
    exact ⟨k.member, ⟨⟨(n, k), Table.get?_eq_some_iff.mp found, rfl⟩, live⟩, hs n k found, rfl⟩

/-- The published view lists the members that are recorded as alive. -/
structure Shown (s : Service) : Prop where
  keyed : s.Keyed
  shown : s.requestView = s.alive.map fun m => (m.id, m.rpcAddr)

theorem Shown.start (id : NodeId) (gossipAddr rpcAddr : SocketAddress) (now : Nat) :
    (start id gossipAddr rpcAddr now).Shown :=
  ⟨Keyed.start id gossipAddr rpcAddr now, rfl⟩

theorem requestView_after {s : Service} {o : Occurrence} {step : Step} (h : s.after o = .ok step) :
    step.service.requestView = step.service.alive.map fun m => (m.id, m.rpcAddr) := by
  obtain ⟨t, published, _⟩ := after_published h
  rw [published, requestView_publish, alive, alive, all, all, (publish_eq t).2.2]

theorem Shown.after {s : Service} (hs : s.Shown) {o : Occurrence} {step : Step} (h : s.after o = .ok step) :
    step.service.Shown :=
  ⟨hs.keyed.after h, requestView_after h⟩

theorem Shown.run {s t : Service} (hs : s.Shown) {os : List Occurrence} (h : s.run os = .ok t) : t.Shown :=
  run_keeps (P := Shown) (fun _ _ _ _ hu ho => hu.after ho) hs h

end Service

end Gossip

end Workshare
