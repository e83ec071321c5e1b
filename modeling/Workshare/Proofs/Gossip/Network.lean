import Workshare.Proofs.Gossip.Ascriptions
import Workshare.Proofs.Wire.Gossip

namespace Workshare

theorem GossipMessage.tells_sent (m : GossipMessage) (n : NodeId) : m.sent.tells n = m.tells n := by
  cases m with
  | ack sender i ms =>
    simp only [sent, tells, Gossip.said, Gossip.about, List.filter_map, List.map_map]
    rfl
  | _ => rfl

namespace Gossip

/-- What a service does by itself, or on a datagram: the one with this index among those that were sent. -/
inductive Deed
  | hears (now : Nat) (src : SocketAddress) (index : Nat)
  | looks (now : Nat)
  | pings (index : Nat)
  | leaves

namespace Service

def does (s : Service) (sent : List (List UInt8)) : Deed → Except Abort (Service × List Letter)
  | .hears now src index =>
    match sent[index]? with
    | some bytes => (s.receiveBytes now src bytes).map fun step => (step.service, step.letters)
    | none => .ok (s, [])
  | .looks now => .ok ((s.detect now).service, (s.detect now).letters)
  | .pings index => .ok (s, s.heartbeats[index]?.toList)
  | .leaves => .ok (s, s.farewell)

end Service

inductive Act
  | starts (id : NodeId) (gossipAddr rpcAddr : SocketAddress) (now : Nat) (seeds : List SocketAddress)
  | does (id : NodeId) (deed : Deed)

def datagramLimit : Nat := 65536

/-- The datagrams that letters are sent in. What does not fit into one is not sent. -/
def datagrams (letters : List Letter) : List (List UInt8) :=
  (letters.map fun l => GossipMessage.codec.write l.message).filter (·.length < datagramLimit)

/-- Gossip services by name, and every datagram that has ever been sent. It may arrive anywhere, at any time, any number of
times or never. -/
structure Network where
  services : Table NodeId Service
  sent : List (List UInt8)

namespace Network

def empty : Network :=
  ⟨Table.empty, []⟩

def post (net : Network) (id : NodeId) (s : Service) (letters : List Letter) : Network :=
  ⟨net.services.insert id s, net.sent ++ datagrams letters⟩

/-- A name is given once. A service that aborts stays as it was. -/
def act (net : Network) : Act → Network
  | .starts id gossipAddr rpcAddr now seeds =>
    let s := Service.start id gossipAddr rpcAddr now
    if net.services.contains id then net else net.post id s (s.introductions seeds)
  | .does id deed =>
    match net.services.get? id with
    | none => net
    | some s =>
      match s.does net.sent deed with
      | .ok (t, letters) => net.post id t letters
      | .error _ => net

def run (net : Network) (acts : List Act) : Network :=
  acts.foldl act net

/-- Some node has recorded the incarnation, or some datagram carries it. -/
def Ascribes (net : Network) (n : NodeId) (i : UInt64) : Prop :=
  (∃ id s r, net.services.get? id = some s ∧ s.report? n = some r ∧ r.incarnation = i) ∨
    ∃ bytes ∈ net.sent, ∃ m, GossipMessage.codec.decode bytes = .ok m ∧ ∃ w ∈ m.tells n, w.incarnation = i

def heard? (net : Network) : Act → Option (NodeId × GossipMessage)
  | .does id (.hears _ _ index) => net.sent[index]?.bind fun bytes =>
    match GossipMessage.codec.decode bytes with
    | .ok m => some (id, m)
    | .error _ => none
  | _ => none

end Network

namespace Service

/-- What a deed may make of a service: it forgets no claim of its own, and neither records nor says of anybody what was
not recorded or told before. -/
structure Sound (s t : Service) (sent : List (List UInt8)) (letters : List Letter) : Prop where
  self : t.self = s.self
  keyed : t.Keyed
  claims : s.incarnation ≤ t.incarnation
  recorded : ∀ n r, t.report? n = some r → (∃ k, s.report? n = some k ∧ k.incarnation = r.incarnation) ∨
    ∃ bytes ∈ sent, ∃ m, GossipMessage.codec.decode bytes = .ok m ∧ ∃ w ∈ m.tells n, w.incarnation = r.incarnation
  letters : ∀ l ∈ letters, ∀ n, ∀ w ∈ l.message.tells n, t.Ascribes n w.incarnation

theorem Sound.same {s : Service} (hs : s.Keyed) (sent : List (List UInt8)) {letters : List Letter}
    (h : ∀ l ∈ letters, ∀ n, ∀ w ∈ l.message.tells n, s.Ascribes n w.incarnation) : Sound s s sent letters :=
  ⟨rfl, hs, UInt64.le_refl _, fun _ r hr => .inl ⟨r, hr, rfl⟩, h⟩

theorem le_claimed (m : GossipMessage) (self : NodeId) (own : Nat) : own ≤ m.claimed self own := by
  unfold GossipMessage.claimed
  split
  next => split <;> omega
  next => exact Nat.le_refl own

theorem sound_receive {s : Service} (hs : s.Keyed) {now : Nat} {src : SocketAddress} {m : GossipMessage} {step : Step}
    (h : s.receive now src m = .ok step) {sent : List (List UInt8)} {bytes : List UInt8} (sentBefore : bytes ∈ sent)
    (decoded : GossipMessage.codec.decode bytes = .ok m) : Sound s step.service sent step.letters := by
  obtain ⟨hself, hinc, _⟩ := after_eq (o := .hears now src m) h
  refine ⟨hself, hs.after (o := .hears now src m) h, ?_, fun n r hr => ?_, fun l hl n w hw => ascribes_receive hs h hl hw⟩
  · rw [UInt64.le_iff_toNat_le, hinc]
    exact le_claimed m _ _
  · rw [report?_receive h] at hr
    rcases GossipMessage.accounts_report hr with old | told
    · exact .inl old
    · exact .inr ⟨bytes, sentBefore, m, decoded, told⟩

theorem sound_does {s t : Service} (hs : s.Keyed) {sent : List (List UInt8)} {deed : Deed} {letters : List Letter}
    (h : s.does sent deed = .ok (t, letters)) : Sound s t sent letters := by
  cases deed with
  | hears now src index =>
    simp only [does] at h
    split at h
    next bytes arrived =>
      cases decoded : GossipMessage.codec.decode bytes with
      | error f =>
        simp only [receiveBytes, decoded] at h
        cases h
        exact Sound.same hs sent (by simp)
      | ok m =>
        simp only [receiveBytes, decoded] at h
        obtain ⟨step, received, same⟩ := Except.exists_of_map h
        cases same
        exact sound_receive hs received (List.mem_of_getElem? arrived) decoded
    next => cases h; exact Sound.same hs sent (by simp)
  | looks now =>
    cases h
    obtain ⟨hself, hinc, hget⟩ := after_eq (o := .looks now) (s := s) rfl
    refine ⟨hself, hs.after (o := .looks now) rfl, ?_, fun n r hr => .inl ?_, fun l hl n w hw => ascribes_detect hs now hl hw⟩
    · rw [UInt64.le_iff_toNat_le, hinc]
      exact Nat.le_refl _
    · rw [report?, hget, Occurrence.record] at hr
      split at hr
      next => exact ⟨r, hr, rfl⟩
      next =>
        obtain ⟨k', hk', rfl⟩ := Option.map_eq_some_iff.mp hr
        obtain ⟨k, hk, rfl⟩ := Option.map_eq_some_iff.mp hk'
        exact ⟨k.report, by rw [report?, hk]; rfl, (incarnation_judge now k).symm⟩
  | pings index =>
    cases h
    refine Sound.same hs sent fun l hl n w hw => ?_
    obtain ⟨peer, _, rfl⟩ := List.mem_map.mp (List.mem_of_getElem? (Option.mem_toList.mp hl))
    exact s.ascribes_own hw
  | leaves =>
    cases h
    refine Sound.same hs sent fun l hl n w hw => ?_
    rw [message_toPeers hl] at hw
    cases hw

end Service

namespace Network

/-- The node itself claims the incarnation, or a higher one. -/
def Claims (net : Network) (n : NodeId) (i : UInt64) : Prop :=
  ∃ o, net.services.get? n = some o ∧ i ≤ o.incarnation

structure Owned (net : Network) : Prop where
  named : ∀ id s, net.services.get? id = some s → s.self.id = id
  keyed : ∀ id s, net.services.get? id = some s → s.Keyed
  claimed : ∀ n i, net.Ascribes n i → net.Claims n i

theorem mem_datagrams {letters : List Letter} {bytes : List UInt8} (h : bytes ∈ datagrams letters) :
    ∃ l ∈ letters, GossipMessage.codec.decode bytes = .ok l.message.sent := by
  obtain ⟨written, short⟩ := List.mem_filter.mp h
  obtain ⟨l, hl, rfl⟩ := List.mem_map.mp written
  refine ⟨l, hl, GossipMessage.decode_write ?_⟩
  have := of_decide_eq_true short
  unfold datagramLimit at this
  omega

theorem get?_post (net : Network) (id : NodeId) (t : Service) (letters : List Letter) (n : NodeId) :
    (net.post id t letters).services.get? n = if n = id then some t else net.services.get? n :=
  Table.get?_insert _ _ _ _

theorem Claims.post {net : Network} {n : NodeId} {i : UInt64} (h : net.Claims n i) {id : NodeId} {t : Service}
    (grows : ∀ s, net.services.get? id = some s → s.incarnation ≤ t.incarnation) (letters : List Letter) :
    (net.post id t letters).Claims n i := by
  obtain ⟨o, ho, le⟩ := h
  by_cases hn : n = id
  · subst hn
    exact ⟨t, by rw [get?_post, if_pos rfl], UInt64.le_trans le (grows o ho)⟩
  · exact ⟨o, by rw [get?_post, if_neg hn, ho], le⟩

theorem Owned.post {net : Network} (h : net.Owned) {id : NodeId} {t : Service} {letters : List Letter}
    (named : t.self.id = id) (keyed : t.Keyed)
    (grows : ∀ s, net.services.get? id = some s → s.incarnation ≤ t.incarnation)
    (recorded : ∀ n r, t.report? n = some r → n = id ∧ r.incarnation ≤ t.incarnation ∨ net.Ascribes n r.incarnation)
    (letter : ∀ l ∈ letters, ∀ n, ∀ w ∈ l.message.tells n, t.Ascribes n w.incarnation) :
    (net.post id t letters).Owned := by
  have own (i : UInt64) (le : i ≤ t.incarnation) : (net.post id t letters).Claims id i :=
    ⟨t, by rw [get?_post, if_pos rfl], le⟩
  have old (n : NodeId) (i : UInt64) (hi : net.Ascribes n i) : (net.post id t letters).Claims n i :=
    (h.claimed n i hi).post grows letters
  have fromTable (n : NodeId) (r : Report) (hr : t.report? n = some r) : (net.post id t letters).Claims n r.incarnation := by
    rcases recorded n r hr with ⟨rfl, le⟩ | before
    · exact own _ le
    · exact old _ _ before
  refine ⟨fun p s hs => ?_, fun p s hs => ?_, ?_⟩
  · rw [get?_post] at hs
    split at hs
    next hp => cases hs; exact named.trans hp.symm
    next => exact h.named p s hs
  · rw [get?_post] at hs
    split at hs
    next => cases hs; exact keyed
    next => exact h.keyed p s hs
  · rintro n i (⟨p, s, r, hs, hr, rfl⟩ | ⟨bytes, hb, m, decoded, w, hw, rfl⟩)
    · rw [get?_post] at hs
      split at hs
      next => cases hs; exact fromTable n r hr
      next => exact old n _ (.inl ⟨p, s, r, hs, hr, rfl⟩)
    · rcases List.mem_append.mp hb with before | new
      · exact old n _ (.inr ⟨bytes, before, m, decoded, w, hw, rfl⟩)
      · obtain ⟨l, hl, back⟩ := mem_datagrams new
        cases decoded.symm.trans back
        rw [GossipMessage.tells_sent] at hw
        rcases letter l hl n w hw with ⟨rfl, hi⟩ | ⟨r, hr, hi⟩
        · rw [hi, named]
          exact own _ (UInt64.le_refl _)
        · rw [← hi]
          exact fromTable n r hr

theorem Owned.starts {net : Network} (h : net.Owned) {id : NodeId} (new : net.services.get? id = none)
    (gossipAddr rpcAddr : SocketAddress) (now : Nat) (seeds : List SocketAddress) :
    (net.post id (Service.start id gossipAddr rpcAddr now)
      ((Service.start id gossipAddr rpcAddr now).introductions seeds)).Owned := by
  refine h.post rfl (Service.Keyed.start id gossipAddr rpcAddr now) (fun s hs => ?_) (fun n r hr => .inl ?_)
    fun l hl n w hw => ?_
  · cases new.symm.trans hs
  · rw [Service.report?, Service.get?, Service.start, Table.get?_insert] at hr
    split at hr
    next hn => cases hr; exact ⟨hn, UInt64.le_refl _⟩
    next => cases hr
  · obtain ⟨seed, _, rfl⟩ := List.mem_map.mp hl
    exact (Service.start id gossipAddr rpcAddr now).ascribes_own hw

theorem Owned.does {net : Network} (h : net.Owned) {id : NodeId} {s t : Service} (hs : net.services.get? id = some s)
    {deed : Deed} {letters : List Letter} (ht : s.does net.sent deed = .ok (t, letters)) :
    (net.post id t letters).Owned := by
  have sound := Service.sound_does (h.keyed id s hs) ht
  refine h.post ((congrArg Member.id sound.self).trans (h.named id s hs)) sound.keyed (fun s' hs' => ?_)
    (fun n r hr => .inr ?_) sound.letters
  · cases hs.symm.trans hs'
    exact sound.claims
  · rcases sound.recorded n r hr with ⟨k, hk, hi⟩ | told
    · exact .inl ⟨id, s, k, hs, hk, hi⟩
    · exact .inr told

theorem Owned.act {net : Network} (h : net.Owned) (a : Act) : (net.act a).Owned := by
  cases a with
  | starts id gossipAddr rpcAddr now seeds =>
    simp only [Network.act]
    split
    next => exact h
    next new =>
      rw [Bool.not_eq_true] at new
      exact h.starts (Table.get?_eq_none_iff.mpr new) gossipAddr rpcAddr now seeds
  | does id deed =>
    simp only [Network.act]
    split
    next => exact h
    next s hs =>
      split
      next t letters ht => exact h.does hs ht
      next => exact h

theorem Owned.empty : Network.empty.Owned := by
  refine ⟨fun _ _ h => ?_, fun _ _ h => ?_, ?_⟩
  · cases h
  · cases h
  · rintro n i (⟨_, _, _, h, _⟩ | ⟨_, h, _⟩)
    · cases h
    · cases h

theorem Owned.run {net : Network} (h : net.Owned) (acts : List Act) : (net.run acts).Owned := by
  induction acts generalizing net with
  | nil => exact h
  | cons a acts ih => exact ih (h.act a)

/-- A node hears itself suspected at the incarnation that it claims, and there is a higher one. -/
def Refutes (net : Network) (a : Act) (n : NodeId) (s : Service) : Prop :=
  net.heard? a = some (n, .suspect n s.incarnation) ∧ s.incarnation.toNat + 1 < UInt64.size

/-- The counter of a node moves only when it refutes a suspicion, and then to the next number. -/
structure Counts (net : Network) (a : Act) (n : NodeId) (s t : Service) : Prop where
  refuted : net.Refutes a n s → t.incarnation.toNat = s.incarnation.toNat + 1
  kept : ¬ net.Refutes a n s → t.incarnation = s.incarnation

theorem Counts.of_quiet {net : Network} {a : Act} {n : NodeId} {s t : Service}
    (quiet : ¬ net.Refutes a n s) (same : t.incarnation = s.incarnation) : Counts net a n s t :=
  ⟨fun refutes => absurd refutes quiet, fun _ => same⟩

/-- A suspicion of the node itself at the incarnation that it claims makes it claim the next one. -/
theorem receive_suspicion {s : Service} (room : s.incarnation.toNat + 1 < UInt64.size) (now : Nat) (src : SocketAddress) :
    ∃ step, s.receive now src (.suspect s.self.id s.incarnation) = .ok step := by
  rw [Service.receive_eq, Service.handle, if_pos rfl, Service.refute, if_neg (UInt64.lt_irrefl _), if_pos room]
  exact ⟨_, rfl⟩

/-- What a node claims after a message that ascribes no incarnation to it but those that it claims. -/
theorem claimed_eq {m : GossipMessage} {self : NodeId} {own : UInt64} (h : ∀ i, m = .suspect self i → i ≤ own) :
    m.claimed self own.toNat = if m = .suspect self own then own.toNat + 1 else own.toNat := by
  by_cases suspected : ∃ i, m = .suspect self i
  · obtain ⟨i, rfl⟩ := suspected
    have le := UInt64.le_iff_toNat_le.mp (h i rfl)
    rw [GossipMessage.claimed, if_pos rfl]
    by_cases same : i = own
    · rw [same, if_pos rfl]
      omega
    · have differ : i.toNat ≠ own.toNat := fun e => same (UInt64.toNat_inj.mp e)
      rw [if_neg (by simpa using same)]
      omega
  · rw [if_neg fun e => suspected ⟨own, e⟩]
    unfold GossipMessage.claimed
    split
    next node i => exact if_neg (by rintro rfl; exact suspected ⟨i, rfl⟩)
    next => rfl

/-- What an act makes of a node that does something, `none` where it aborts. -/
theorem get?_act_does {net : Network} {id : NodeId} {s : Service} (hs : net.services.get? id = some s) {deed : Deed}
    {result : Except Abort (Service × List Letter)} (h : s.does net.sent deed = result) :
    (net.act (.does id deed)).services.get? id = some (result.toOption.elim s (·.1)) := by
  simp only [Network.act, hs, h]
  cases result with
  | error a => exact hs
  | ok p => rw [get?_post, if_pos rfl]; rfl

theorem get?_act_other {net : Network} {id n : NodeId} (other : n ≠ id) (deed : Deed) :
    (net.act (.does id deed)).services.get? n = net.services.get? n := by
  simp only [Network.act]
  split
  next => rfl
  next =>
    split
    next => rw [get?_post, if_neg other]
    next => rfl

theorem heard?_eq_some {net : Network} {id n : NodeId} {deed : Deed} {m : GossipMessage}
    (h : net.heard? (.does id deed) = some (n, m)) : n = id := by
  unfold heard? at h
  split at h
  next id' now src index e =>
    cases e
    obtain ⟨bytes, _, h⟩ := Option.bind_eq_some_iff.mp h
    split at h
    next => cases h; rfl
    next => cases h
  next => cases h

/-- A suspicion that arrives is of an incarnation which the node claims. -/
theorem Owned.suspicion_le {net : Network} (h : net.Owned) {n : NodeId} {s : Service}
    (hs : net.services.get? n = some s) {bytes : List UInt8} (sentBefore : bytes ∈ net.sent) {i : UInt64}
    (decoded : GossipMessage.codec.decode bytes = .ok (.suspect n i)) : i ≤ s.incarnation := by
  obtain ⟨o, ho, le⟩ := h.claimed n i (.inr ⟨bytes, sentBefore, _, decoded, ⟨.suspect, i⟩, by simp [GossipMessage.tells], rfl⟩)
  cases hs.symm.trans ho
  exact le

theorem Owned.counts_hears {net : Network} (h : net.Owned) {n : NodeId} {s : Service}
    (hs : net.services.get? n = some s) (now : Nat) (src : SocketAddress) (index : Nat) :
    ∃ t, (net.act (.does n (.hears now src index))).services.get? n = some t ∧
      Counts net (.does n (.hears now src index)) n s t := by
  have named := h.named n s hs
  cases arrived : net.sent[index]? with
  | none =>
    have nothing : s.does net.sent (.hears now src index) = .ok (s, []) := by simp only [Service.does, arrived]
    exact ⟨s, get?_act_does hs nothing, Counts.of_quiet (by simp [Refutes, heard?, arrived]) rfl⟩
  | some bytes =>
    cases decoded : GossipMessage.codec.decode bytes with
    | error f =>
      have nothing : s.does net.sent (.hears now src index) = .ok (s, []) := by
        simp only [Service.does, arrived, Service.receiveBytes, decoded]
        rfl
      exact ⟨s, get?_act_does hs nothing, Counts.of_quiet (by simp [Refutes, heard?, arrived, decoded]) rfl⟩
    | ok m =>
      have result : s.does net.sent (.hears now src index) =
          (s.receive now src m).map fun step => (step.service, step.letters) := by
        simp only [Service.does, arrived, Service.receiveBytes, decoded]
      have refutes : net.Refutes (.does n (.hears now src index)) n s ↔
          m = .suspect n s.incarnation ∧ s.incarnation.toNat + 1 < UInt64.size := by
        simp [Refutes, heard?, arrived, decoded]
      cases received : s.receive now src m with
      | error a =>
        rw [received] at result
        refine ⟨s, get?_act_does hs result, Counts.of_quiet (fun e => ?_) rfl⟩
        -- a refutation that has room for one more does not fail
        obtain ⟨rfl, room⟩ := refutes.mp e
        obtain ⟨step, ok⟩ := receive_suspicion room now src
        rw [named] at ok
        cases received.symm.trans ok
      | ok step =>
        rw [received] at result
        have below : ∀ i, m = .suspect n i → i ≤ s.incarnation := by
          rintro i rfl
          exact h.suspicion_le hs (List.mem_of_getElem? arrived) decoded
        have counter : step.service.incarnation.toNat =
            if m = .suspect n s.incarnation then s.incarnation.toNat + 1 else s.incarnation.toNat := by
          rw [(Service.after_eq (o := .hears now src m) received).2.1, named]
          exact claimed_eq below
        refine ⟨step.service, get?_act_does hs result, fun e => ?_, fun e => UInt64.toNat_inj.mp ?_⟩
        · rw [counter, if_pos (refutes.mp e).1]
        · rw [counter, if_neg]
          intro suspected
          have room := step.service.incarnation.toNat_lt
          rw [counter, if_pos suspected] at room
          exact e (refutes.mpr ⟨suspected, room⟩)

/-- A node claims the next incarnation when it hears itself suspected at the one that it claims. -/
theorem Owned.counts_act {net : Network} (h : net.Owned) (a : Act) {n : NodeId} {s : Service}
    (hs : net.services.get? n = some s) :
    ∃ t, (net.act a).services.get? n = some t ∧ Counts net a n s t := by
  cases a with
  | starts id gossipAddr rpcAddr now seeds =>
    refine ⟨s, ?_, Counts.of_quiet (by simp [Refutes, heard?]) rfl⟩
    simp only [Network.act]
    split
    next => exact hs
    next new =>
      have other : n ≠ id := by
        rintro rfl
        rw [Bool.not_eq_true] at new
        cases hs.symm.trans (Table.get?_eq_none_iff.mpr new)
      rw [get?_post, if_neg other, hs]
  | does id deed =>
    by_cases own : n = id
    · subst own
      cases deed with
      | hears now src index => exact h.counts_hears hs now src index
      | looks now =>
        have same : (s.detect now).service.incarnation = s.incarnation :=
          UInt64.toNat_inj.mp (Service.after_eq (o := .looks now) (s := s) rfl).2.1
        exact ⟨_, get?_act_does hs rfl, Counts.of_quiet (by simp [Refutes, heard?]) same⟩
      | pings index => exact ⟨s, get?_act_does hs rfl, Counts.of_quiet (by simp [Refutes, heard?]) rfl⟩
      | leaves => exact ⟨s, get?_act_does hs rfl, Counts.of_quiet (by simp [Refutes, heard?]) rfl⟩
    · refine ⟨s, (get?_act_other own deed).trans hs, Counts.of_quiet (fun e => own (heard?_eq_some e.1)) rfl⟩

/-- A service starts under its own name, and claims the first incarnation. -/
theorem first_act {net : Network} {a : Act} {n : NodeId} {s : Service} (new : net.services.get? n = none)
    (hs : (net.act a).services.get? n = some s) : s.self.id = n ∧ s.incarnation = 1 := by
  cases a with
  | starts id gossipAddr rpcAddr now seeds =>
    simp only [Network.act] at hs
    split at hs
    next => cases new.symm.trans hs
    next =>
      rw [get?_post] at hs
      split at hs
      next hn => cases hs; exact ⟨hn.symm, rfl⟩
      next => cases new.symm.trans hs
  | does id deed =>
    by_cases own : n = id
    · subst own
      simp only [Network.act, new] at hs
      cases hs
    · rw [get?_act_other own, new] at hs
      cases hs

/-- However gossip services start, hear, look, ping and leave, and whatever becomes of their datagrams: an incarnation that
is recorded of a node, or told of it by a datagram, is at most the one that the node claims itself. A node claims the first
incarnation when it starts. It claims a new one only when it refutes a suspicion, which is then of the one that it claims,
and the new one is the next. -/
theorem incarnations_owned (acts : List Act) :
    (∀ n i, (empty.run acts).Ascribes n i → (empty.run acts).Claims n i) ∧
    (∀ a n s, (empty.run acts).services.get? n = some s →
      ∃ t, ((empty.run acts).act a).services.get? n = some t ∧ Counts (empty.run acts) a n s t) ∧
    ∀ a n s, (empty.run acts).services.get? n = none → ((empty.run acts).act a).services.get? n = some s →
      s.self.id = n ∧ s.incarnation = 1 := by
  have owned := Owned.empty.run acts
  exact ⟨owned.claimed, fun a n s hs => owned.counts_act a hs, fun a n s new hs => first_act new hs⟩

/-- Node a hears of b and c, and later suspects b, of which it has heard no more. -/
def suspicion : List Act :=
  [.starts ⟨"a"⟩ (.v4 1 7946) (.v4 1 7947) 0 [], .starts ⟨"b"⟩ (.v4 2 7946) (.v4 2 7947) 0 [.v4 1 7946],
    .starts ⟨"c"⟩ (.v4 3 7946) (.v4 3 7947) 0 [.v4 1 7946], .does ⟨"a"⟩ (.hears 1 (.v4 2 7946) 0),
    .does ⟨"a"⟩ (.hears 4000 (.v4 3 7946) 1), .does ⟨"a"⟩ (.looks 6000)]

theorem incarnations_owned_refuted :
    ∃ s t, (empty.run suspicion).services.get? ⟨"b"⟩ = some s ∧ s.incarnation = 1 ∧
      (empty.run suspicion).Ascribes ⟨"b"⟩ 1 ∧ (empty.run suspicion).Claims ⟨"b"⟩ 1 ∧
      ((empty.run suspicion).act (.does ⟨"b"⟩ (.hears 6001 (.v4 1 7946) 2))).services.get? ⟨"b"⟩ = some t ∧
      t.incarnation.toNat = 2 := by
  obtain ⟨claimed, counts, _⟩ := incarnations_owned suspicion
  have ascribed : (empty.run suspicion).Ascribes ⟨"b"⟩ 1 :=
    .inl ⟨⟨"a"⟩, _, ⟨.suspect, 1⟩, rfl, rfl, rfl⟩
  obtain ⟨s, hs, one⟩ : ∃ s, (empty.run suspicion).services.get? ⟨"b"⟩ = some s ∧ s.incarnation = 1 := ⟨_, rfl, rfl⟩
  obtain ⟨t, ht, count⟩ := counts (.does ⟨"b"⟩ (.hears 6001 (.v4 1 7946) 2)) ⟨"b"⟩ s hs
  have refutes : (empty.run suspicion).Refutes (.does ⟨"b"⟩ (.hears 6001 (.v4 1 7946) 2)) ⟨"b"⟩ s := by
    rw [Refutes, one]
    exact ⟨rfl, by decide⟩
  exact ⟨s, t, hs, one, ascribed, claimed _ _ ascribed, ht, by rw [count.refuted refutes, one]; rfl⟩

end Network

end Gossip

end Workshare
