import Workshare.Proofs.Gossip.Ascriptions
import Workshare.Proofs.Gossip.OwnRecord

namespace Workshare

/-- One report may follow another: the incarnation does not go down, and a death stands for its incarnation. -/
structure Report.Advances (r r' : Report) : Prop where
  rising : r.incarnation ≤ r'.incarnation
  death : r.state = .dead → r'.state ≠ .dead → r.incarnation < r'.incarnation

theorem Report.Advances.refl (r : Report) : r.Advances r :=
  ⟨UInt64.le_refl _, fun dead lives => absurd dead lives⟩

theorem Report.Advances.trans {r s t : Report} (h : r.Advances s) (h' : s.Advances t) : r.Advances t := by
  refine ⟨UInt64.le_trans h.rising h'.rising, fun dead lives => ?_⟩
  by_cases still : s.state = .dead
  · exact UInt64.lt_of_le_of_lt h.rising (h'.death still lives)
  · exact UInt64.lt_of_lt_of_le (h.death dead still) h'.rising

namespace Gossip

/-- What reports make of what was known of a member. -/
structure Revision (ws : List Report) (r r' : Report) : Prop extends r.Advances r' where
  revival : r.state ≠ .alive → r'.state = .alive → ∃ w ∈ ws, w.state = .alive ∧ r.incarnation ≤ w.incarnation

namespace Revision

theorem refl (ws : List Report) (r : Report) : Revision ws r r :=
  ⟨.refl r, fun other live => absurd live other⟩

theorem trans {ws vs : List Report} {r s t : Report} (h : Revision ws r s) (h' : Revision vs s t) :
    Revision (ws ++ vs) r t := by
  refine ⟨h.toAdvances.trans h'.toAdvances, fun other live => ?_⟩
  by_cases back : s.state = .alive
  · obtain ⟨w, hw, alive, le⟩ := h.revival other back
    exact ⟨w, List.mem_append_left _ hw, alive, le⟩
  · obtain ⟨w, hw, alive, le⟩ := h'.revival back live
    exact ⟨w, List.mem_append_right _ hw, alive, UInt64.le_trans h.rising le⟩

theorem mono {ws vs : List Report} {r r' : Report} (h : Revision ws r r') (sub : ws ⊆ vs) : Revision vs r r' := by
  refine ⟨h.toAdvances, fun other live => ?_⟩
  obtain ⟨w, hw, alive⟩ := h.revival other live
  exact ⟨w, sub hw, alive⟩

theorem of_lt {ws : List Report} {r r' : Report} (higher : r.incarnation < r'.incarnation) (told : r' ∈ ws) :
    Revision ws r r' :=
  ⟨⟨UInt64.le_of_lt higher, fun _ _ => higher⟩, fun _ live => ⟨r', told, live, UInt64.le_of_lt higher⟩⟩

/-- Where only the incarnation changes, nobody comes alive. -/
theorem of_state {ws : List Report} {r r' : Report} (rising : r.incarnation ≤ r'.incarnation)
    (same : r'.state = r.state) : Revision ws r r' :=
  ⟨⟨rising, fun dead lives => absurd (same.trans dead) lives⟩, fun other live => absurd (same.symm.trans live) other⟩

end Revision

section Changes

variable (i : UInt64) (r : Report)

theorem revision_refreshed : Revision [⟨.alive, i⟩] r (refreshed i r) := by
  unfold refreshed
  split
  next higher => exact .of_lt higher (List.mem_singleton_self _)
  next => exact .refl _ r

theorem revision_raised : Revision [] r (raised i r) := by
  unfold raised
  split
  next higher => exact .of_state (UInt64.le_of_lt higher) rfl
  next => exact .refl _ r

theorem revision_doubted : Revision [⟨.suspect, i⟩] r (doubted i r) := by
  unfold doubted
  split
  next counts =>
    obtain ⟨le, live⟩ := counts
    refine ⟨⟨le, fun dead => ?_⟩, fun other => absurd live other⟩
    cases live.symm.trans dead
  next => exact .refl _ r

theorem revision_over (w : Report) : Revision [w] r (w.over (some r)) := by
  rw [Report.over]
  split
  next higher => exact .of_lt higher (List.mem_singleton_self w)
  next =>
    split
    next back =>
      obtain ⟨same, live, suspect⟩ := back
      have level : r.incarnation ≤ w.incarnation := same ▸ UInt64.le_refl _
      refine ⟨⟨level, fun dead => ?_⟩, fun _ _ => ⟨w, List.mem_singleton_self w, live, level⟩⟩
      cases suspect.symm.trans dead
    next => exact .refl _ r

theorem revision_lapsed (live : r.state = .alive) (state : MemberState) : Revision [] r { r with state := state } := by
  refine ⟨⟨UInt64.le_refl _, fun dead => ?_⟩, fun other => absurd live other⟩
  cases live.symm.trans dead

theorem revision_buried : Revision [] r { r with state := .dead } := by
  refine ⟨⟨UInt64.le_refl _, fun _ lives => absurd rfl lives⟩, fun _ live => ?_⟩
  cases live

theorem revision_weigh (ws : List Report) : ∃ r', weigh (some r) ws = some r' ∧ Revision ws r r' := by
  induction ws generalizing r with
  | nil => exact ⟨r, rfl, .refl _ r⟩
  | cons w ws ih =>
    obtain ⟨r', hr, later⟩ := ih (w.over (some r))
    exact ⟨r', hr, (revision_over r w).trans later⟩

end Changes

/-- Silence makes no member alive, and a look at the dead changes nothing. -/
theorem revision_judge (now : Nat) (k : Known) : Revision [] k.report (Service.judge now k).report := by
  unfold Service.judge
  split
  next => exact .refl _ _
  next =>
    split
    next live =>
      split
      next => exact revision_lapsed k.report live .suspect
      next => exact .refl _ _
    next =>
      split
      next => exact revision_buried k.report
      next => exact .refl _ _
    next => exact .refl _ _

end Gossip

namespace GossipMessage

open Gossip

theorem revision_ack {self n sender : NodeId} (i : UInt64) (ms : List Member) (r : Report) :
    ∃ r', (ack sender i ms).report self n (some r) = some r' ∧ Revision ((ack sender i ms).tells n) r r' := by
  have first : ∃ q, (if n = sender then (some r).map (raised i) else some r) = some q ∧ Revision [] r q := by
    split
    next => exact ⟨_, rfl, revision_raised i r⟩
    next => exact ⟨r, rfl, .refl _ r⟩
  obtain ⟨q, hq, announced⟩ := first
  simp only [report]
  rw [hq]
  split
  next => exact ⟨q, rfl, announced.mono (List.nil_subset _)⟩
  next =>
    obtain ⟨r', hr, listed⟩ := revision_weigh q (said n ms)
    exact ⟨r', hr, (announced.trans listed).mono (List.subset_append_right _ _)⟩

/-- What a message makes of the report of a member that is known and does not introduce itself. -/
theorem revision_report {m : GossipMessage} {n : NodeId} (uninvited : ∀ node, m = .join node → node.id ≠ n)
    (self : NodeId) (r : Report) : ∃ r', m.report self n (some r) = some r' ∧ Revision (m.tells n) r r' := by
  unfold report tells
  cases m with
  | ping sender rpc i =>
    dsimp only
    split
    next => exact ⟨_, rfl, revision_refreshed i r⟩
    next => exact ⟨r, rfl, .refl _ r⟩
  | ack sender i ms => exact revision_ack i ms r
  | join node => exact ⟨r, if_neg (Ne.symm (uninvited node rfl)), .refl _ r⟩
  | leave node =>
    dsimp only
    split
    next => exact ⟨_, rfl, revision_buried r⟩
    next => exact ⟨r, rfl, .refl _ r⟩
  | suspect node i =>
    dsimp only
    split
    next counts =>
      rw [if_pos counts.1]
      exact ⟨_, rfl, revision_doubted i r⟩
    next => exact ⟨r, rfl, .refl _ r⟩
  | alive node i =>
    dsimp only
    split
    next => exact ⟨_, rfl, revision_over r _⟩
    next => exact ⟨r, rfl, .refl _ r⟩

end GossipMessage

namespace Gossip

namespace Occurrence

/-- What is told of a member. A look at the members tells nothing. -/
def tells (n : NodeId) : Occurrence → List Report
  | .hears _ _ m => m.tells n
  | .looks _ => []

/-- Whatever happens revises what is known of a member that does not introduce itself, and leaves it where it is. -/
theorem revision_record {o : Occurrence} {n : NodeId}
    (uninvited : ∀ node, o.message? = some (.join node) → node.id ≠ n) (self : NodeId) (k : Known) :
    ∃ k', o.record self n (some k) = some k' ∧ k'.member.card = k.member.card ∧
      Revision (o.tells n) k.report k'.report := by
  cases o with
  | hears now src m =>
    have other : ∀ node, m = .join node → node.id ≠ n := fun node joins => uninvited node (congrArg some joins)
    obtain ⟨k', hk, card⟩ := card_record other self now src k
    obtain ⟨r', hr, revision⟩ := GossipMessage.revision_report other self k.report
    have reported := report_record self now src n m (some k)
    rw [hk, Option.map_some, Option.map_some, hr] at reported
    exact ⟨k', hk, card, Option.some.inj reported ▸ revision⟩
  | looks now =>
    rw [record]
    split
    next => exact ⟨k, rfl, rfl, .refl _ _⟩
    next => exact ⟨_, rfl, card_judge now k, revision_judge now k⟩

/-- A member that is known stays known. What is known of it is revised, or replaced when it introduces itself. -/
theorem record_known (o : Occurrence) (self n : NodeId) (k : Known) :
    ∃ k', o.record self n (some k) = some k' ∧
      (Revision (o.tells n) k.report k'.report ∨
        ∃ node, o.message? = some (.join node) ∧ node.id = n ∧ k'.report = node.report) := by
  have revised (uninvited : ∀ node, o.message? = some (.join node) → node.id ≠ n) :
      ∃ k', o.record self n (some k) = some k' ∧ Revision (o.tells n) k.report k'.report := by
    obtain ⟨k', hk, _, revision⟩ := o.revision_record uninvited self k
    exact ⟨k', hk, revision⟩
  cases o with
  | looks now =>
    obtain ⟨k', hk, revision⟩ := revised fun node joins => absurd joins (Option.some_ne_none _).symm
    exact ⟨k', hk, .inl revision⟩
  | hears now src m =>
    rcases joins_or_not m n with ⟨node, rfl, named⟩ | other
    · exact ⟨⟨node, some now⟩, if_pos named.symm, .inr ⟨node, rfl, named, rfl⟩⟩
    · obtain ⟨k', hk, revision⟩ := revised fun node joins => other node (Option.some.inj joins)
      exact ⟨k', hk, .inl revision⟩

end Occurrence

namespace Service

/-- Whatever a service hears, and whenever it looks at its members: a member that is known and does not introduce
itself in the meantime stays known, at the same addresses. Its incarnation does not go down; once it is dead, it
is in another state only with a higher incarnation; and where it was suspect or dead and is alive, it has been
reported alive with an incarnation at least as high as the one that was recorded. -/
theorem knowledge_advances {s t : Service} {os : List Occurrence} (h : s.run os = .ok t) {n : NodeId} {k : Known}
    (known : s.get? n = some k)
    (uninvited : ∀ node, .join node ∈ messages os → node.id ≠ n) :
    ∃ k', t.get? n = some k' ∧ k'.member.card = k.member.card ∧
      Revision (os.flatMap (·.tells n)) k.report k'.report := by
  induction os generalizing s k with
  | nil =>
    cases h
    exact ⟨k, known, rfl, .refl _ _⟩
  | cons o os ih =>
    rw [run_cons] at h
    cases ho : s.after o with
    | error a => rw [ho] at h; cases h
    | ok step =>
      rw [ho] at h
      obtain ⟨k₁, hk₁, card₁, first⟩ :=
        o.revision_record (fun node joins => uninvited node (mem_messages List.mem_cons_self _ joins)) s.self.id k
      have found : step.service.get? n = some k₁ := by rw [(after_eq ho).2.2, known, hk₁]
      have rest : ∀ node, .join node ∈ messages os → node.id ≠ n := by
        intro node joins
        obtain ⟨o', ho', heard⟩ := List.mem_filterMap.mp joins
        exact uninvited node (mem_messages (List.mem_cons_of_mem o ho') _ heard)
      obtain ⟨k', hk', card, later⟩ := ih h found rest
      refine ⟨k', hk', card.trans card₁, ?_⟩
      rw [List.flatMap_cons]
      exact first.trans later

def newcomer : Member :=
  ⟨⟨"b"⟩, .v4 2 7946, .v4 2 7947, .alive, 1⟩

def doubting : Except Abort Service :=
  (start ⟨"a"⟩ (.v4 1 7946) (.v4 1 7947) 0).run
    [.hears 1 (.v4 2 7946) (.join newcomer), .hears 2 (.v4 3 7946) (.suspect ⟨"b"⟩ 1)]

/-- An ack of the peer lists it at the next incarnation. -/
def vindication : List Occurrence :=
  [.hears 3 (.v4 2 7946) (.ack ⟨"b"⟩ 2 [{ newcomer with incarnation := 2 }]), .looks 4]

theorem knowledge_advances_suspected :
    ∃ s t k, doubting = .ok s ∧ s.run vindication = .ok t ∧
      s.get? ⟨"b"⟩ = some ⟨{ newcomer with state := .suspect }, some 1⟩ ∧ t.get? ⟨"b"⟩ = some k ∧
      k.member.state = .alive ∧ k.member.card = newcomer.card ∧ 1 ≤ k.member.incarnation ∧
      ∃ w ∈ vindication.flatMap (·.tells ⟨"b"⟩), w.state = .alive ∧ 1 ≤ w.incarnation := by
  obtain ⟨s, hs⟩ : ∃ s, doubting = .ok s := ⟨_, rfl⟩
  obtain ⟨t, ht⟩ : ∃ t, s.run vindication = .ok t := by
    cases hs
    exact ⟨_, rfl⟩
  have suspect : s.get? ⟨"b"⟩ = some ⟨{ newcomer with state := .suspect }, some 1⟩ := by cases hs; rfl
  obtain ⟨k, hk, card, revision⟩ := knowledge_advances ht suspect (by simp [vindication, messages, Occurrence.message?])
  have live : k.member.state = .alive := by cases hs; cases ht; cases hk; rfl
  exact ⟨s, t, k, hs, ht, suspect, hk, live, card, revision.rising, revision.revival (by decide) live⟩

/-- After any run a member is behind what was known of it only where it has introduced itself with a report that is. -/
theorem set_back_run {s t : Service} {os : List Occurrence} (h : s.run os = .ok t) {n : NodeId} {k : Known}
    (known : s.get? n = some k) :
    ∃ k', t.get? n = some k' ∧ (k.report.Advances k'.report ∨
      ∃ node, .join node ∈ messages os ∧ node.id = n ∧ ¬ k.report.Advances node.report) := by
  refine run_keeps (P := fun u => ∃ k', u.get? n = some k' ∧ (k.report.Advances k'.report ∨
    ∃ node, .join node ∈ messages os ∧ node.id = n ∧ ¬ k.report.Advances node.report)) ?_ ⟨k, known, .inl (.refl _)⟩ h
  rintro o ho u step ⟨k₁, hk₁, far⟩ hstep
  obtain ⟨k', hk', change⟩ := o.record_known u.self.id n k₁
  refine ⟨k', by rw [(after_eq hstep).2.2, hk₁, hk'], ?_⟩
  rcases far with advanced | late
  · rcases change with revision | ⟨node, joins, named, same⟩
    · exact .inl (advanced.trans revision.toAdvances)
    · by_cases newer : k.report.Advances node.report
      · exact .inl (same ▸ newer)
      · exact .inr ⟨node, mem_messages ho _ joins, named, newer⟩
  · exact .inr late

/-- A join is taken as it is: whatever was known of its sender, the record of it is now the one that it brings,
and it is published as alive if it says so. Nobody else is touched. What is known of a member falls behind, to a
lower incarnation or from death to another state without a higher one, only by a join of that member which is
itself behind. -/
theorem only_joins_set_back {id : NodeId} {gossipAddr rpcAddr : SocketAddress} {begun : Nat} {os : List Occurrence}
    {s : Service} (h : (start id gossipAddr rpcAddr begun).run os = .ok s) :
    (∀ now src node, ∃ step, s.receive now src (.join node) = .ok step ∧ step.letters = [] ∧
      step.service.incarnation = s.incarnation ∧
      (∀ n, step.service.get? n = if n = node.id then some ⟨node, some now⟩ else s.get? n) ∧
      ∀ n a, (n, a) ∈ step.service.requestView ↔
        if n = node.id then node.state = .alive ∧ node.rpcAddr = a else (n, a) ∈ s.requestView) ∧
    ∀ later t, s.run later = .ok t → ∀ n k, s.get? n = some k →
      ∃ k', t.get? n = some k' ∧ (k.report.Advances k'.report ∨
        ∃ node, .join node ∈ messages later ∧ node.id = n ∧ ¬ k.report.Advances node.report) := by
  refine ⟨fun now src node => ?_, fun later t ht n k known => set_back_run ht known⟩
  obtain ⟨step, hstep⟩ : ∃ step, s.receive now src (.join node) = .ok step := ⟨_, rfl⟩
  have silent : step.letters = [] := by cases hstep; rfl
  obtain ⟨_, counter, records⟩ := after_eq (o := .hears now src (.join node)) hstep
  have before : s.Shown := (Shown.start id gossipAddr rpcAddr begun).run h
  have shown : step.service.Shown := before.after (o := .hears now src (.join node)) hstep
  refine ⟨step, hstep, silent, UInt64.toNat_inj.mp counter, records, fun n a => ?_⟩
  rw [shown.shown, mem_alive shown.keyed, records]
  simp only [Occurrence.record, GossipMessage.record]
  split
  next => simp
  next => rw [before.shown, mem_alive before.keyed]

/-- The peer has taken its leave. -/
def parted : Except Abort Service :=
  (start ⟨"a"⟩ (.v4 1 7946) (.v4 1 7947) 0).run
    [.hears 1 (.v4 2 7946) (.join newcomer), .hears 2 (.v4 2 7946) (.leave ⟨"b"⟩)]

theorem only_joins_set_back_departed :
    ∃ s step, parted = .ok s ∧ s.get? ⟨"b"⟩ = some ⟨{ newcomer with state := .dead }, some 1⟩ ∧
      s.receive 3 (.v4 2 7946) (.join newcomer) = .ok step ∧ step.service.get? ⟨"b"⟩ = some ⟨newcomer, some 3⟩ ∧
      (⟨"b"⟩, .v4 2 7947) ∈ step.service.requestView ∧
      ∃ node, .join node ∈ messages [.hears 3 (.v4 2 7946) (.join newcomer)] ∧ node.id = ⟨"b"⟩ ∧
        ¬ (⟨.dead, 1⟩ : Report).Advances node.report := by
  obtain ⟨s, hs⟩ : ∃ s, parted = .ok s := ⟨_, rfl⟩
  have dead : s.get? ⟨"b"⟩ = some ⟨{ newcomer with state := .dead }, some 1⟩ := by cases hs; rfl
  obtain ⟨taken, later⟩ := only_joins_set_back hs
  obtain ⟨step, hstep, _, _, records, shown⟩ := taken 3 (.v4 2 7946) newcomer
  have back : step.service.get? ⟨"b"⟩ = some ⟨newcomer, some 3⟩ := records ⟨"b"⟩
  have single : s.run [.hears 3 (.v4 2 7946) (.join newcomer)] = .ok step.service := by
    rw [run_cons, after, hstep]
    rfl
  obtain ⟨k, hk, far⟩ := later _ _ single ⟨"b"⟩ _ dead
  cases back.symm.trans hk
  refine ⟨s, step, hs, dead, hstep, back, (shown _ _).mpr ⟨rfl, rfl⟩, far.resolve_left fun advanced => ?_⟩
  exact absurd (advanced.death rfl (by decide)) (by decide)

/-- A join that comes late sets a member back to a lower incarnation, and brings one that has departed back to life. -/
theorem set_back_by_join :
    (¬ ∀ id gossipAddr rpcAddr begun os s, (start id gossipAddr rpcAddr begun).run os = .ok s →
      ∀ now src node step, s.receive now src (.join node) = .ok step → ∀ k k', s.get? node.id = some k →
        node.incarnation < k.member.incarnation → step.service.get? node.id = some k' →
        k.member.incarnation ≤ k'.member.incarnation) ∧
    ¬ ∀ id gossipAddr rpcAddr begun os s, (start id gossipAddr rpcAddr begun).run os = .ok s →
      ∀ now src node step, s.receive now src (.join node) = .ok step → ∀ k k', s.get? node.id = some k →
        k.member.state = .dead → node.incarnation = k.member.incarnation → step.service.get? node.id = some k' →
        k'.member.state ≠ .alive := by
  constructor
  · intro keeps
    have kept : (2 : UInt64) ≤ 1 :=
      keeps ⟨"a"⟩ (.v4 1 7946) (.v4 1 7947) 0
        [.hears 1 (.v4 2 7946) (.join newcomer), .hears 2 (.v4 2 7946) (.alive ⟨"b"⟩ 2)] _ rfl
        3 (.v4 2 7946) newcomer _ rfl ⟨{ newcomer with incarnation := 2 }, some 2⟩ ⟨newcomer, some 3⟩ rfl (by decide) rfl
    exact absurd kept (by decide)
  · intro rests
    exact rests ⟨"a"⟩ (.v4 1 7946) (.v4 1 7947) 0
      [.hears 1 (.v4 2 7946) (.join newcomer), .hears 2 (.v4 2 7946) (.leave ⟨"b"⟩)] _ rfl
      3 (.v4 2 7946) newcomer _ rfl ⟨{ newcomer with state := .dead }, some 1⟩ ⟨newcomer, some 3⟩ rfl rfl rfl rfl rfl

end Service

end Gossip

end Workshare
