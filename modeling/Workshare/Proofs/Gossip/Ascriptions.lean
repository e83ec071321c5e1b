import Workshare.Proofs.Gossip.Reports

namespace Workshare

namespace Gossip

theorem weigh_mem {r : Option Report} {ws : List Report} {r' : Report} (h : weigh r ws = some r') :
    r = some r' ∨ r' ∈ ws := by
  rcases List.mem_append.mp (weigh_top h).mem with old | told
  · exact .inl (Option.mem_toList.mp old)
  · exact .inr told

section Changes

variable (i : UInt64) (r : Report)

theorem incarnation_refreshed : (refreshed i r).incarnation = r.incarnation ∨ (refreshed i r).incarnation = i := by
  unfold refreshed
  split <;> simp

theorem incarnation_raised : (raised i r).incarnation = r.incarnation ∨ (raised i r).incarnation = i := by
  unfold raised
  split <;> simp

theorem incarnation_doubted : (doubted i r).incarnation = r.incarnation ∨ (doubted i r).incarnation = i := by
  unfold doubted
  split <;> simp

theorem incarnation_over (w : Report) :
    (w.over (some r)).incarnation = r.incarnation ∨ (w.over (some r)).incarnation = w.incarnation := by
  simp only [Report.over]
  split
  next => exact .inr rfl
  next => split <;> simp

end Changes

end Gossip

namespace GossipMessage

open Gossip

/-- The incarnation `i` was recorded before, or the message tells it. -/
def Accounts (m : GossipMessage) (n : NodeId) (r : Option Report) (i : UInt64) : Prop :=
  (∃ k, r = some k ∧ k.incarnation = i) ∨ ∃ w ∈ m.tells n, w.incarnation = i

theorem accounts_map {m : GossipMessage} {n : NodeId} {r : Option Report} {f : Report → Report} {w : Report}
    (told : w ∈ m.tells n) (hf : ∀ k, (f k).incarnation = k.incarnation ∨ (f k).incarnation = w.incarnation) {r' : Report}
    (h : r.map f = some r') : m.Accounts n r r'.incarnation := by
  obtain ⟨k, rfl, rfl⟩ := Option.map_eq_some_iff.mp h
  rcases hf k with old | new
  · exact .inl ⟨k, rfl, old.symm⟩
  · exact .inr ⟨w, told, new.symm⟩

/-- The incarnation that is recorded after a message was recorded before, or the message tells it. -/
theorem accounts_report {m : GossipMessage} {self n : NodeId} {r : Option Report} {r' : Report}
    (h : m.report self n r = some r') : m.Accounts n r r'.incarnation := by
  have same : r = some r' → m.Accounts n r r'.incarnation := fun e => .inl ⟨r', e, rfl⟩
  unfold report at h
  cases m with
  | ping sender rpc i =>
    dsimp only at h
    split at h
    next own =>
      have told : (⟨.alive, i⟩ : Report) ∈ (ping sender rpc i).tells n := by simp [tells, own]
      cases r with
      | none => cases h; exact .inr ⟨_, told, rfl⟩
      | some k => exact accounts_map told (incarnation_refreshed i) h
    next => exact same h
  | ack sender i ms =>
    dsimp only at h
    -- the list is weighed against what the announcement has left
    have first : ∀ q, (if n = sender then r.map (raised i) else r) = some q →
        (ack sender i ms).Accounts n r q.incarnation := by
      intro q hq
      split at hq
      next own =>
        have told : (⟨.alive, i⟩ : Report) ∈ (ack sender i ms).tells n := by simp [tells, own]
        exact accounts_map told (incarnation_raised i) hq
      next => exact .inl ⟨q, hq, rfl⟩
    split at h
    next => exact first r' h
    next =>
      rcases weigh_mem h with old | told
      · exact first r' old
      · exact .inr ⟨r', List.mem_append_right _ told, rfl⟩
  | join node =>
    dsimp only at h
    split at h
    next own => cases h; exact .inr ⟨node.report, by simp [tells, own], rfl⟩
    next => exact same h
  | leave node =>
    dsimp only at h
    split at h
    next =>
      obtain ⟨k, rfl, rfl⟩ := Option.map_eq_some_iff.mp h
      exact .inl ⟨k, rfl, rfl⟩
    next => exact same h
  | suspect node i =>
    dsimp only at h
    split at h
    next own =>
      have told : (⟨.suspect, i⟩ : Report) ∈ (suspect node i).tells n := by simp [tells, own.1]
      exact accounts_map told (incarnation_doubted i) h
    next => exact same h
  | alive node i =>
    dsimp only at h
    split at h
    next own =>
      have told : (⟨.alive, i⟩ : Report) ∈ (alive node i).tells n := by simp [tells, own]
      exact accounts_map told (fun k => incarnation_over k _) h
    next => exact same h

end GossipMessage

namespace Gossip

/-- A service has recorded the incarnation of a member, or claims it for itself. -/
def Service.Ascribes (s : Service) (n : NodeId) (i : UInt64) : Prop :=
  n = s.self.id ∧ i = s.incarnation ∨ ∃ r, s.report? n = some r ∧ r.incarnation = i

theorem incarnation_judge (now : Nat) (k : Known) : (Service.judge now k).report.incarnation = k.report.incarnation := by
  unfold Service.judge
  split
  next => rfl
  next =>
    split
    next => split <;> rfl
    next => split <;> rfl
    next => rfl

namespace Service

theorem report?_publish (s : Service) (n : NodeId) : s.publish.1.report? n = s.report? n := by
  rw [report?, get?, (publish_eq s).2.2]
  rfl

theorem ascribes_publish {s : Service} {n : NodeId} {i : UInt64} (h : s.Ascribes n i) : s.publish.1.Ascribes n i := by
  rw [Ascribes, report?_publish, (publish_eq s).1, (publish_eq s).2.1]
  exact h

theorem ascribes_own (s : Service) {n : NodeId} {w : Report} {state : MemberState}
    (h : w ∈ if n = s.self.id then [(⟨state, s.incarnation⟩ : Report)] else []) : s.Ascribes n w.incarnation := by
  split at h
  next own => rw [List.mem_singleton.mp h]; exact .inl ⟨own, rfl⟩
  next => cases h

theorem ascribes_ack {s : Service} (hs : s.Keyed) {n : NodeId} {w : Report}
    (h : w ∈ (GossipMessage.ack s.self.id s.incarnation s.all).tells n) : s.Ascribes n w.incarnation := by
  rcases List.mem_append.mp h with own | listed
  · exact s.ascribes_own own
  · obtain ⟨m, hm, rfl⟩ := List.mem_map.mp listed
    obtain ⟨hall, named⟩ := List.mem_filter.mp hm
    obtain ⟨⟨p, k⟩, he, rfl⟩ := List.mem_map.mp hall
    have found : s.get? p = some k := Table.get?_eq_some_iff.mpr he
    have same : p = n := (hs p k found).symm.trans (of_decide_eq_true named)
    exact .inr ⟨k.report, by rw [report?, ← same, found]; rfl, rfl⟩

theorem message_toPeers {s : Service} {m : GossipMessage} {l : Letter} (h : l ∈ s.toPeers m) : l.message = m := by
  obtain ⟨_, _, rfl⟩ := List.mem_map.mp h
  rfl

/-- A service answers a ping with what it has recorded, and refutes a suspicion with what it claims. -/
theorem message_handle {s t : Service} {now : Nat} {src : SocketAddress} {m : GossipMessage} {letters : List Letter}
    (h : s.handle now src m = .ok (t, letters)) {l : Letter} (hl : l ∈ letters) :
    l.message = .ack t.self.id t.incarnation t.all ∨ l.message = .alive t.self.id t.incarnation := by
  cases m with
  | ping sender rpc i =>
    cases h
    rw [List.mem_singleton.mp hl]
    exact .inl rfl
  | ack sender i ms => cases h; cases hl
  | join node => cases h; cases hl
  | leave node => cases h; cases hl
  | suspect node i =>
    simp only [handle] at h
    split at h
    next =>
      unfold refute at h
      split at h
      next => cases h; cases hl
      next =>
        split at h
        next => cases h; exact .inr (message_toPeers hl)
        next => cases h
    next => cases h; cases hl
  | alive node i => cases h; cases hl

theorem ascribes_receive {s : Service} {now : Nat} {src : SocketAddress} {m : GossipMessage} {step : Step} (hs : s.Keyed)
    (h : s.receive now src m = .ok step) {l : Letter} (hl : l ∈ step.letters) {n : NodeId} {w : Report}
    (hw : w ∈ l.message.tells n) : step.service.Ascribes n w.incarnation := by
  have keyed := hs.after (o := .hears now src m) h
  obtain ⟨t, handled, published⟩ := receive_ok h
  rw [published] at keyed ⊢
  refine ascribes_publish ?_
  have keyed' : t.Keyed := by
    intro p k hk
    exact keyed p k (by rw [get?, (publish_eq t).2.2]; exact hk)
  rcases message_handle handled hl with e | e
  · rw [e] at hw
    exact ascribes_ack keyed' hw
  · rw [e] at hw
    exact t.ascribes_own hw

theorem ascribes_detect {s : Service} (hs : s.Keyed) (now : Nat) {l : Letter} (hl : l ∈ (s.detect now).letters)
    {n : NodeId} {w : Report} (hw : w ∈ l.message.tells n) : (s.detect now).service.Ascribes n w.incarnation := by
  obtain ⟨m, hm, hl⟩ := List.mem_flatMap.mp hl
  rw [message_toPeers hl] at hw
  obtain ⟨⟨p, k⟩, he, hf⟩ := List.mem_filterMap.mp hm
  dsimp only at hf
  split at hf
  next suspected =>
    cases hf
    have other : p ≠ s.self.id := by
      simp only [Bool.and_eq_true, decide_eq_true_eq] at suspected
      exact suspected.1.1
    have found : s.get? p = some k := Table.get?_eq_some_iff.mpr he
    have named : (judge now k).member.id = p := (congrArg Prod.fst (card_judge now k)).trans (hs p k found)
    rw [named] at hw
    have same : n = p := by
      by_contra differ
      rw [GossipMessage.tells, if_neg differ] at hw
      cases hw
    rw [GossipMessage.tells, if_pos same] at hw
    rw [List.mem_singleton.mp hw]
    refine .inr ⟨(judge now k).report, ?_, rfl⟩
    rw [report?, (after_eq (o := .looks now) (s := s) rfl).2.2, Occurrence.record, same, if_neg other, found]
    rfl
  next => cases hf

end Service

end Gossip

end Workshare
