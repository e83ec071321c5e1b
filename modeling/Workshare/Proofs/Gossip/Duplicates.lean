import Workshare.Proofs.Gossip.Merging
import Workshare.Proofs.Gossip.Views

namespace Workshare

theorem Member.eq_of_card_of_report {a b : Member} (card : a.card = b.card) (report : a.report = b.report) : a = b := by
  obtain ⟨id, gossip, rpc, state, i⟩ := a
  simp only [Member.card, Member.report, Prod.mk.injEq, Report.mk.injEq] at card report
  obtain ⟨rfl, rfl, rfl⟩ := card
  obtain ⟨rfl, rfl⟩ := report
  rfl

namespace Gossip

/-- No report changes the outcome of those among which it is. -/
theorem Outcome.over_eq {ws : List Report} {r : Report} (h : Outcome ws r) {w : Report} (hw : w ∈ ws) :
    w.over (some r) = r := by
  rw [Report.over, if_neg (UInt64.not_lt.mpr (h.top w hw)), if_neg]
  rintro ⟨same, live, suspect⟩
  have lives : ¬ DeadAt r.incarnation ws := fun dead => by
    cases suspect.symm.trans (h.state_eq_dead.mpr dead)
  have told : (⟨.alive, r.incarnation⟩ : Report) ∈ ws := by rwa [← same, ← live]
  cases suspect.symm.trans ((h.state_eq_alive lives).mpr told)

theorem weigh_settled {r : Report} {ws : List Report} (h : ∀ w ∈ ws, w.over (some r) = r) : weigh (some r) ws = some r := by
  induction ws with
  | nil => rfl
  | cons w ws ih =>
    rw [weigh_cons, h w List.mem_cons_self]
    exact ih fun v hv => h v (List.mem_cons_of_mem w hv)

theorem weigh_again {r : Option Report} {ws : List Report} {r' : Report} (h : weigh r ws = some r') :
    weigh (some r') ws = some r' :=
  weigh_settled fun _ hw => (weigh_top h).over_eq (List.mem_append_right _ hw)

theorem weigh_twice (r : Option Report) (ws : List Report) : weigh (weigh r ws) ws = weigh r ws := by
  cases h : weigh r ws with
  | none => rw [(weigh_eq_none.mp h).2]; rfl
  | some r' => exact weigh_again h

theorem weigh_lower {r : Report} {ws : List Report} (h : ∀ w ∈ ws, w.incarnation < r.incarnation) :
    weigh (some r) ws = some r := by
  refine weigh_settled fun w hw => ?_
  have lower := h w hw
  rw [Report.over, if_neg (UInt64.not_lt.mpr (UInt64.le_of_lt lower)), if_neg]
  rintro ⟨same, _⟩
  exact UInt64.lt_irrefl _ (same ▸ lower)

section Changes

variable (i : UInt64) (r : Report)

theorem refreshed_again : refreshed i (refreshed i r) = refreshed i r := by
  by_cases higher : r.incarnation < i
  · simp [refreshed, higher]
  · simp [refreshed, higher]

theorem doubted_again : doubted i (doubted i r) = doubted i r := by
  by_cases counts : r.incarnation ≤ i ∧ r.state = .alive
  · simp [doubted, counts]
  · simp [doubted, counts]

theorem le_raised : i ≤ (raised i r).incarnation := by
  unfold raised
  split
  next => exact UInt64.le_refl i
  next still => exact UInt64.not_lt.mp still

end Changes

end Gossip

namespace GossipMessage

open Gossip

/-- The incarnation that a stranger announces in an ack, above all those with which it lists itself. The ack makes the
stranger known, but what it announces is not recorded before the ack comes again. -/
def early? (self n : NodeId) (r : Option Report) : GossipMessage → Option UInt64
  | .ack sender i ms =>
    if n = sender ∧ n ≠ self ∧ r = none ∧ said n ms ≠ [] ∧ ∀ w ∈ said n ms, w.incarnation < i then some i else none
  | _ => none

theorem early?_ack {self n sender : NodeId} {r : Option Report} {i j : UInt64} {ms : List Member}
    (h : (ack sender i ms).early? self n r = some j) :
    j = i ∧ n = sender ∧ n ≠ self ∧ r = none ∧ said n ms ≠ [] ∧ ∀ w ∈ said n ms, w.incarnation < i := by
  unfold early? at h
  dsimp only at h
  split at h
  next early => exact ⟨(Option.some.inj h).symm, early⟩
  next => cases h

theorem report_ack {self n : NodeId} (peer : n ≠ self) (sender : NodeId) (i : UInt64) (ms : List Member)
    (r : Option Report) :
    (ack sender i ms).report self n r = weigh (if n = sender then r.map (raised i) else r) (said n ms) :=
  if_neg peer

/-- The ack of somebody who is known announces nothing when it comes again. -/
theorem report_ack_known {self n : NodeId} (peer : n ≠ self) (i : UInt64) (ms : List Member) (k : Report) :
    (ack n i ms).report self n ((ack n i ms).report self n (some k)) = (ack n i ms).report self n (some k) := by
  obtain ⟨r', hw, outcome⟩ := weigh_known (raised i k) (said n ms)
  have once : (ack n i ms).report self n (some k) = some r' := by rw [report_ack peer, if_pos rfl, Option.map_some, hw]
  have reached : i ≤ r'.incarnation := UInt64.le_trans (le_raised i k) (outcome.top _ List.mem_cons_self)
  rw [once, report_ack peer, if_pos rfl, Option.map_some, raised_of_le reached, weigh_again hw]

/-- The ack of a stranger that lists itself announces something when it comes again, if that is above the list. -/
theorem report_ack_stranger {self n : NodeId} (peer : n ≠ self) (i : UInt64) (ms : List Member) :
    (ack n i ms).report self n ((ack n i ms).report self n none) =
      ((ack n i ms).early? self n none).elim ((ack n i ms).report self n none) fun j =>
        ((ack n i ms).report self n none).map fun k => { k with incarnation := j } := by
  have first : (ack n i ms).report self n none = weigh none (said n ms) := by
    rw [report_ack peer, if_pos rfl, Option.map_none]
  cases hw : weigh none (said n ms) with
  | none =>
    have unlisted : (ack n i ms).early? self n none = none := if_neg fun h => h.2.2.2.1 (weigh_eq_none.mp hw).2
    rw [unlisted, Option.elim_none, first, hw, first, hw]
  | some r' =>
    have outcome := weigh_top hw
    have listed : said n ms ≠ [] := List.ne_nil_of_mem outcome.mem
    have again : (ack n i ms).report self n (some r') = weigh (some (raised i r')) (said n ms) := by
      rw [report_ack peer, if_pos rfl, Option.map_some]
    rw [first, hw, again]
    by_cases above : ∀ w ∈ said n ms, w.incarnation < i
    · have early : (ack n i ms).early? self n none = some i := if_pos ⟨rfl, peer, rfl, listed, above⟩
      have raise : raised i r' = { r' with incarnation := i } := if_pos (above r' outcome.mem)
      rw [early, Option.elim_some, Option.map_some, raise]
      exact weigh_lower above
    · have late : (ack n i ms).early? self n none = none := if_neg fun h => above h.2.2.2.2
      have reached : i ≤ r'.incarnation := by
        simp only [Classical.not_forall] at above
        obtain ⟨w, hw, still⟩ := above
        exact UInt64.le_trans (UInt64.not_lt.mp still) (outcome.top w hw)
      rw [late, Option.elim_none, raised_of_le reached, weigh_again hw]

theorem report_ack_again (self n sender : NodeId) (i : UInt64) (ms : List Member) (r : Option Report) :
    (ack sender i ms).report self n ((ack sender i ms).report self n r) =
      ((ack sender i ms).early? self n r).elim ((ack sender i ms).report self n r) fun j =>
        ((ack sender i ms).report self n r).map fun k => { k with incarnation := j } := by
  by_cases own : n = self
  · have late : (ack sender i ms).early? self n r = none := if_neg fun h => h.2.1 own
    rw [late, Option.elim_none]
    simp only [report, if_pos own]
    split
    next => cases r with
      | none => rfl
      | some k => exact congrArg some (raised_of_le (le_raised i k))
    next => rfl
  · by_cases sends : n = sender
    · subst sends
      cases r with
      | none => exact report_ack_stranger own i ms
      | some k =>
        have late : (ack n i ms).early? self n (some k) = none := if_neg fun h => Option.some_ne_none k h.2.2.1
        rw [late, Option.elim_none]
        exact report_ack_known own i ms k
    · have late : (ack sender i ms).early? self n r = none := if_neg fun h => sends h.1
      rw [late, Option.elim_none, report_ack own, report_ack own, if_neg sends, if_neg sends]
      exact weigh_twice r (said n ms)

/-- What a message makes of a report, it makes of it once, unless it comes early. -/
theorem report_again (m : GossipMessage) (self n : NodeId) (r : Option Report) :
    m.report self n (m.report self n r) =
      (m.early? self n r).elim (m.report self n r) fun i => (m.report self n r).map fun k => { k with incarnation := i } := by
  cases m with
  | ping sender rpc i =>
    simp only [report, early?, Option.elim_none]
    split
    next =>
      cases r with
      | none => simp [refreshed]
      | some k => simp [refreshed_again]
    next => rfl
  | ack sender i ms => exact report_ack_again self n sender i ms r
  | join node =>
    simp only [report, early?, Option.elim_none]
    split <;> rfl
  | leave node =>
    simp only [report, early?, Option.elim_none]
    split
    next => cases r <;> rfl
    next => rfl
  | suspect node i =>
    simp only [report, early?, Option.elim_none]
    split
    next =>
      cases r with
      | none => rfl
      | some k => exact congrArg some (doubted_again i k)
    next => rfl
  | alive node i =>
    simp only [report, early?, Option.elim_none]
    split
    next =>
      cases r with
      | none => rfl
      | some k => exact congrArg some (((Outcome.single k).concat _).over_eq List.mem_concat_self)
    next => rfl

/-- A message does not come early twice. -/
theorem early?_report (m : GossipMessage) (self n : NodeId) (r : Option Report) :
    m.early? self n (m.report self n r) = none := by
  cases m with
  | ack sender i ms =>
    refine if_neg ?_
    rintro ⟨_, peer, unknown, listed, _⟩
    rw [report_ack peer] at unknown
    exact listed (weigh_eq_none.mp unknown).2
  | _ => rfl

/-- What comes early is above what is recorded. -/
theorem lt_of_early? {m : GossipMessage} {self n : NodeId} {r : Option Report} {i : UInt64}
    (h : m.early? self n r = some i) : ∃ k, m.report self n r = some k ∧ k.incarnation < i := by
  cases m with
  | ack sender j ms =>
    obtain ⟨rfl, rfl, peer, rfl, listed, above⟩ := early?_ack h
    have heard : (ack n i ms).report self n none = weigh none (said n ms) := by
      rw [report_ack peer, if_pos rfl, Option.map_none]
    cases hw : weigh none (said n ms) with
    | none => exact absurd (weigh_eq_none.mp hw).2 listed
    | some k => exact ⟨k, heard.trans hw, above k (weigh_top hw).mem⟩
  | _ => cases h

/-- A member is where it was when a message comes again. -/
theorem card_again (m : GossipMessage) (self n : NodeId) (now now' : Nat) (src src' : SocketAddress) (r : Option Known) :
    (m.record self now' src' n (m.record self now src n r)).map (·.member.card) =
      (m.record self now src n r).map (·.member.card) := by
  cases hr : m.record self now src n r with
  | none =>
    have silent : m.report self n (r.map Known.report) = none := by rw [← report_record self now src, hr]; rfl
    have again := report_again m self n (r.map Known.report)
    rw [silent] at again
    have unknown : (m.record self now' src' n none).map Known.report = none := by
      rw [report_record]
      refine again.trans ?_
      cases m.early? self n (r.map Known.report) <;> rfl
    rw [Option.map_eq_none_iff.mp unknown]
  | some k =>
    rcases joins_or_not m n with ⟨node, rfl, named⟩ | uninvited
    · rw [record, if_pos named.symm] at hr ⊢
      cases hr
      rfl
    · obtain ⟨k', hk, card⟩ := card_record uninvited self now' src' k
      rw [hk]
      exact congrArg some card

theorem claimed_again (m : GossipMessage) (self : NodeId) (own : Nat) :
    m.claimed self (m.claimed self own) = m.claimed self own := by
  cases m with
  | suspect node i =>
    unfold claimed
    dsimp only
    split <;> omega
  | _ => rfl

end GossipMessage

namespace Gossip.Service

def member? (s : Service) (n : NodeId) : Option Member :=
  (s.get? n).map (·.member)

theorem report?_eq (s : Service) (n : NodeId) : s.report? n = (s.member? n).map Member.report := by
  rw [member?, Option.map_map]
  rfl

/-- What the view depends on. -/
def face (m : Member) : NodeId × SocketAddress × MemberState :=
  (m.id, m.rpcAddr, m.state)

theorem contacts_alive (s : Service) :
    s.alive.map contact =
      (((s.members.mapValues fun _ k => face k.member).entries.map (·.2)).filter (·.2.2 = .alive)).map
        fun f => (f.1, f.2.1) := by
  simp only [alive, all, Table.mapValues, List.map_map, List.filter_map]
  rfl

theorem contacts_eq {s t : Service} (h : ∀ n, (s.member? n).map face = (t.member? n).map face) :
    s.alive.map contact = t.alive.map contact := by
  have same : (s.members.mapValues fun _ k => face k.member) = t.members.mapValues fun _ k => face k.member := by
    refine Table.ext_get? fun n => ?_
    have entry := h n
    simp only [member?, Option.map_map] at entry
    rw [Table.get?_mapValues, Table.get?_mapValues]
    exact entry
  rw [contacts_alive, contacts_alive, same]

theorem publish_silent {s : Service} (h : s.publish.2 = false) : s.publish.1 = s := by
  unfold publish at h ⊢
  split
  next => rfl
  next news =>
    rw [if_neg news] at h
    cases h

theorem member?_ext {a b : Option Member} (card : a.map Member.card = b.map Member.card)
    (report : a.map Member.report = b.map Member.report) : a = b := by
  cases a with
  | none =>
    cases b with
    | none => rfl
    | some b => cases card
  | some a =>
    cases b with
    | none => cases card
    | some b => exact congrArg some (Member.eq_of_card_of_report (Option.some.inj card) (Option.some.inj report))

section Again

variable {s : Service} {now now' : Nat} {src src' : SocketAddress} {m : GossipMessage} {step step' : Step}
  (h : s.receive now src m = .ok step) (h' : step.service.receive now' src' m = .ok step')

include h h'

theorem member?_again (n : NodeId) :
    step'.service.member? n = (m.early? s.self.id n (s.report? n)).elim (step.service.member? n) fun i =>
      (step.service.member? n).map fun k => { k with incarnation := i } := by
  obtain ⟨self, _, first⟩ := after_eq (o := .hears now src m) h
  obtain ⟨_, _, second⟩ := after_eq (o := .hears now' src' m) h'
  have cards : (step'.service.member? n).map Member.card = (step.service.member? n).map Member.card := by
    have again := m.card_again s.self.id n now now' src src' (s.get? n)
    simp only [member?, Option.map_map, second, first, self]
    exact again
  have reports := m.report_again s.self.id n (s.report? n)
  rw [← report?_receive h, ← self, ← report?_receive h', self, report?_eq, report?_eq step.service] at reports
  cases he : m.early? s.self.id n (s.report? n) with
  | none =>
    rw [he] at reports
    exact member?_ext cards reports
  | some i =>
    rw [he] at reports
    refine member?_ext (cards.trans ?_) (reports.trans ?_)
    · rw [Option.elim_some, Option.map_map]
      rfl
    · rw [Option.elim_some, Option.elim_some, Option.map_map, Option.map_map]
      rfl

theorem requestView_again : step'.service.requestView = step.service.requestView := by
  rw [requestView_after (o := .hears now' src' m) h', requestView_after (o := .hears now src m) h]
  refine contacts_eq fun n => ?_
  rw [member?_again h h' n]
  cases m.early? s.self.id n (s.report? n) with
  | none => rfl
  | some i =>
    rw [Option.elim_some, Option.map_map]
    rfl

theorem published_again : step'.published = false := by
  rw [← Bool.not_eq_true, told_iff (o := .hears now' src' m) h', ne_eq, Classical.not_not]
  exact requestView_again h h'

theorem view_again : step'.service.view = step.service.view := by
  obtain ⟨t, view, service, published⟩ := after_view (o := .hears now' src' m) h'
  have silent := published_again h h'
  rw [published] at silent
  rw [service, publish_silent silent, view]

theorem incarnation_again : step'.service.incarnation = step.service.incarnation := by
  obtain ⟨self, claim, _⟩ := after_eq (o := .hears now src m) h
  obtain ⟨_, claim', _⟩ := after_eq (o := .hears now' src' m) h'
  refine UInt64.toNat_inj.mp ?_
  rw [claim', claim, self]
  exact m.claimed_again s.self.id _

end Again

theorem receive_again {s : Service} {now : Nat} {src : SocketAddress} {m : GossipMessage} {step : Step}
    (h : s.receive now src m = .ok step) (now' : Nat) (src' : SocketAddress) :
    ∃ step', step.service.receive now' src' m = .ok step' := by
  have heard := (s.after_isOk (.hears now src m)).mp ⟨step, h⟩
  have self := (after_eq (o := .hears now src m) h).1
  refine (step.service.after_isOk (.hears now' src' m)).mpr fun now'' src'' e => ?_
  cases e
  exact heard now src (by rw [self])

/-- Nothing of a service has changed but when it heard of whom. -/
structure Unmoved (s t : Service) : Prop where
  incarnation : t.incarnation = s.incarnation
  view : t.view = s.view
  members : ∀ n, t.member? n = s.member? n

/-- Copies of a message that did not come early change nothing. -/
theorem copies_unmoved {m : GossipMessage} {copies : List Occurrence}
    (hc : ∀ o ∈ copies, ∃ now src, o = .hears now src m) {s : Service} {now : Nat} {src : SocketAddress} {step : Step}
    (h : s.receive now src m = .ok step) (late : ∀ n, m.early? s.self.id n (s.report? n) = none) :
    ∃ t, step.service.run copies = .ok t ∧ Unmoved step.service t := by
  induction copies generalizing s now src step with
  | nil => exact ⟨step.service, rfl, rfl, rfl, fun _ => rfl⟩
  | cons o copies ih =>
    obtain ⟨now', src', rfl⟩ := hc o List.mem_cons_self
    obtain ⟨step', h'⟩ := receive_again h now' src'
    have settled : ∀ n, m.early? step.service.self.id n (step.service.report? n) = none := by
      intro n
      rw [(after_eq (o := .hears now src m) h).1, report?_receive h]
      exact m.early?_report s.self.id n _
    obtain ⟨t, ht, unmoved⟩ := ih (fun o ho => hc o (List.mem_cons_of_mem _ ho)) h' settled
    refine ⟨t, ?_, ?_⟩
    · rw [run_cons, after, h']
      exact ht
    · refine ⟨unmoved.incarnation.trans (incarnation_again h h'), unmoved.view.trans (view_again h h'), fun n => ?_⟩
      rw [unmoved.members, member?_again h h' n, late, Option.elim_none]

/-- A message that is heard again is handled again, and leaves the members, what the node claims and what it
publishes as they are, with one exception. The ack of a stranger that lists the stranger, but below the
incarnation which it announces, makes it known as it is listed; heard again, it raises the incarnation to the
announced one. Any further copy changes nothing. -/
theorem duplicate_harmless {s : Service} {now : Nat} {src : SocketAddress} {m : GossipMessage} {step : Step}
    (h : s.receive now src m = .ok step) (now' : Nat) (src' : SocketAddress) :
    ∃ step', step.service.receive now' src' m = .ok step' ∧ step'.published = false ∧
      step'.service.incarnation = step.service.incarnation ∧ step'.service.view = step.service.view ∧
      (∀ n, m.early? s.self.id n (s.report? n) = none → step'.service.member? n = step.service.member? n) ∧
      (∀ n i, m.early? s.self.id n (s.report? n) = some i → ∃ k, step.service.member? n = some k ∧
        k.incarnation < i ∧ step'.service.member? n = some { k with incarnation := i }) ∧
      ∀ copies, (∀ o ∈ copies, ∃ now src, o = .hears now src m) →
        ∃ t, step'.service.run copies = .ok t ∧ Unmoved step'.service t := by
  obtain ⟨step', h'⟩ := receive_again h now' src'
  refine ⟨step', h', published_again h h', incarnation_again h h', view_again h h', fun n late => ?_, fun n i early => ?_,
    fun copies hc => ?_⟩
  · rw [member?_again h h' n, late, Option.elim_none]
  · obtain ⟨r, hr, above⟩ := GossipMessage.lt_of_early? early
    rw [← report?_receive h, report?] at hr
    obtain ⟨k, hk, rfl⟩ := Option.map_eq_some_iff.mp hr
    refine ⟨k.member, by rw [member?, hk]; rfl, above, ?_⟩
    rw [member?_again h h' n, early, member?, hk]
    rfl
  · refine copies_unmoved hc h' fun n => ?_
    rw [(after_eq (o := .hears now src m) h).1, report?_receive h]
    exact m.early?_report s.self.id n _

/-- The ack of a stranger that has refuted a suspicion, and lists itself as it began. -/
def modest : GossipMessage :=
  (listing "x" 2 ⟨.alive, 1⟩).ack.message

theorem duplicate_harmless_early :
    ∃ step step' t, (start ⟨"a"⟩ (.v4 1 7946) (.v4 1 7947) 0).receive 1 (.v4 3 7946) modest = .ok step ∧
      step.service.receive 2 (.v4 3 7946) modest = .ok step' ∧ step'.published = false ∧
      step'.service.view = step.service.view ∧ step'.service.member? ⟨"a"⟩ = step.service.member? ⟨"a"⟩ ∧
      step.service.member? ⟨"x"⟩ = some ⟨⟨"x"⟩, .v4 3 7946, .v4 3 7947, .alive, 1⟩ ∧
      step'.service.member? ⟨"x"⟩ = some ⟨⟨"x"⟩, .v4 3 7946, .v4 3 7947, .alive, 2⟩ ∧
      step'.service.run [.hears 3 (.v4 3 7946) modest, .hears 4 (.v4 3 7946) modest] = .ok t ∧
      Unmoved step'.service t := by
  obtain ⟨step, h⟩ : ∃ step, (start ⟨"a"⟩ (.v4 1 7946) (.v4 1 7947) 0).receive 1 (.v4 3 7946) modest = .ok step :=
    ⟨_, rfl⟩
  have listed : step.service.member? ⟨"x"⟩ = some ⟨⟨"x"⟩, .v4 3 7946, .v4 3 7947, .alive, 1⟩ := by cases h; rfl
  obtain ⟨step', h', silent, _, view, late, early, further⟩ := duplicate_harmless h 2 (.v4 3 7946)
  obtain ⟨k, hk, _, raised⟩ := early ⟨"x"⟩ 2 (by decide)
  cases listed.symm.trans hk
  obtain ⟨t, ht, unmoved⟩ := further [.hears 3 (.v4 3 7946) modest, .hears 4 (.v4 3 7946) modest]
    (List.forall_mem_cons.mpr ⟨⟨3, _, rfl⟩, List.forall_mem_singleton.mpr ⟨4, _, rfl⟩⟩)
  exact ⟨step, step', t, h, h', silent, view, late ⟨"a"⟩ (by decide), listed, raised, ht, unmoved⟩

/-- An ack that comes again may raise an incarnation. -/
theorem duplicate_raises :
    ¬ ∀ id gossipAddr rpcAddr begun os s, (start id gossipAddr rpcAddr begun).run os = .ok s →
      ∀ now src m step, s.receive now src m = .ok step → ∀ now' step', step.service.receive now' src m = .ok step' →
        ∀ n, step'.service.member? n = step.service.member? n := by
  intro harmless
  have same : some (⟨⟨"x"⟩, .v4 3 7946, .v4 3 7947, .alive, 2⟩ : Member) =
      some ⟨⟨"x"⟩, .v4 3 7946, .v4 3 7947, .alive, 1⟩ :=
    harmless ⟨"a"⟩ (.v4 1 7946) (.v4 1 7947) 0 [] _ rfl 1 (.v4 3 7946) modest _ rfl 2 _ rfl ⟨"x"⟩
  exact absurd same (by decide)

end Gossip.Service

end Workshare
