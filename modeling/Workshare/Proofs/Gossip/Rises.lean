import Workshare.Proofs.Gossip.Reports

namespace Workshare.Gossip

/-- Reports that are older than the outcome do not matter. -/
theorem outcome_append_of_lt {vs ws : List Report} {r : Report} (h : ∀ v ∈ vs, v.incarnation < r.incarnation) :
    Outcome (vs ++ ws) r ↔ Outcome ws r := by
  have old : r ∉ vs := fun hr => UInt64.lt_irrefl _ (h r hr)
  have other : statesAt r.incarnation (vs ++ ws) = statesAt r.incarnation ws := by
    have none : statesAt r.incarnation vs = [] := statesAt_eq_nil fun v hv e =>
      UInt64.lt_irrefl _ (e ▸ h v hv)
    rw [statesAt_append, none, List.nil_append]
  constructor
  · rintro ⟨mem, top, state⟩
    exact ⟨(List.mem_append.mp mem).resolve_left old, fun w hw => top w (List.mem_append_right _ hw), other ▸ state⟩
  · rintro ⟨mem, top, state⟩
    refine ⟨List.mem_append_right _ mem, fun w hw => ?_, other.symm ▸ state⟩
    rcases List.mem_append.mp hw with hw | hw
    · exact UInt64.le_of_lt (h w hw)
    · exact top w hw

theorem outcome_cons_of_lt {v r : Report} {ws : List Report} (h : v.incarnation < r.incarnation) :
    Outcome (v :: ws) r ↔ Outcome ws r :=
  outcome_append_of_lt (List.forall_mem_singleton.mpr h)

theorem Outcome.lt_iff {r r' : Report} {ws : List Report} (h : Outcome (r :: ws) r') :
    r.incarnation < r'.incarnation ↔ ∃ w ∈ ws, r.incarnation < w.incarnation := by
  constructor
  · intro higher
    exact ⟨r', ((outcome_cons_of_lt higher).mp h).mem, higher⟩
  · rintro ⟨w, hw, higher⟩
    exact UInt64.lt_of_lt_of_le higher (h.top w (List.mem_cons_of_mem _ hw))

structure Rise (m : GossipMessage) (n : NodeId) (r r' : Report) : Prop where
  /-- The incarnation rises when a higher one is told. A suspicion counts only against a member that is alive. -/
  iff : r.incarnation < r'.incarnation ↔
    (∃ w ∈ m.tells n, r.incarnation < w.incarnation) ∧ ∀ i, m = .suspect n i → r.state = .alive
  /-- What is recorded then is what the message tells. -/
  brings : (∀ i ms, m = .ack n i ms → r.incarnation < i → r.state = .alive) →
    r.incarnation < r'.incarnation → Outcome (m.tells n) r'
  /-- An ack puts the state that was recorded in the place of a sign of life. -/
  ack : ∀ i ms, m = .ack n i ms → r.incarnation < i → Outcome (⟨r.state, i⟩ :: said n ms) r'

theorem Rise.of_silence {m : GossipMessage} {n : NodeId} (silent : m.tells n = []) (noAck : ∀ i ms, m ≠ .ack n i ms)
    {r r' : Report} (same : r'.incarnation = r.incarnation) : Rise m n r r' := by
  have still : ¬ r.incarnation < r'.incarnation := same ▸ UInt64.lt_irrefl _
  refine ⟨⟨fun higher => absurd higher still, ?_⟩, fun _ higher => absurd higher still,
    fun i ms e => absurd e (noAck i ms)⟩
  rintro ⟨⟨w, hw, _⟩, _⟩
  rw [silent] at hw
  cases hw

theorem Rise.of_single {m : GossipMessage} {n : NodeId} {w : Report} (single : m.tells n = [w])
    (noAck : ∀ i ms, m ≠ .ack n i ms) {r r' : Report} (unchanged : r' = r ∨ r' = w)
    (iff : r.incarnation < r'.incarnation ↔
      r.incarnation < w.incarnation ∧ ∀ i, m = .suspect n i → r.state = .alive) : Rise m n r r' := by
  refine ⟨?_, fun _ higher => ?_, fun i ms e => absurd e (noAck i ms)⟩
  · rw [iff, single]
    simp
  · rcases unchanged with rfl | rfl
    · exact absurd higher (UInt64.lt_irrefl _)
    · rw [single]
      exact Outcome.single r'

theorem rise_ping (n : NodeId) (rpc : SocketAddress) (i : UInt64) (r : Report) :
    Rise (.ping n rpc i) n r (refreshed i r) := by
  refine Rise.of_single (w := ⟨.alive, i⟩) (by simp [GossipMessage.tells]) (by simp) ?_ ?_
  · unfold refreshed
    split
    next => exact .inr rfl
    next => exact .inl rfl
  · unfold refreshed
    split
    next higher => simp [higher]
    next still => simp [still]

theorem rise_alive (n : NodeId) (i : UInt64) (r : Report) :
    Rise (.alive n i) n r ((⟨.alive, i⟩ : Report).over (some r)) := by
  have single := Outcome.lt_iff ((Outcome.single r).concat ⟨.alive, i⟩)
  refine Rise.of_single (w := ⟨.alive, i⟩) (by simp [GossipMessage.tells]) (by simp) ?_ ?_
  · simp only [Report.over]
    split
    next => exact .inr rfl
    next =>
      split
      next => exact .inr rfl
      next => exact .inl rfl
  · rw [single]
    simp

theorem rise_join (node : Member) (r : Report) : Rise (.join node) node.id r node.report :=
  Rise.of_single (by simp [GossipMessage.tells]) (by simp) (.inr rfl) (by simp)

theorem rise_suspect (n : NodeId) (i : UInt64) (r : Report) : Rise (.suspect n i) n r (doubted i r) := by
  refine Rise.of_single (w := ⟨.suspect, i⟩) (by simp [GossipMessage.tells]) (by simp) ?_ ?_
  · unfold doubted
    split
    next => exact .inr rfl
    next => exact .inl rfl
  · unfold doubted
    split
    next counts => simp [counts.2]
    next ignored =>
      refine ⟨fun higher => absurd higher (UInt64.lt_irrefl _), ?_⟩
      rintro ⟨higher, live⟩
      exact absurd ⟨UInt64.le_of_lt higher, live i rfl⟩ ignored

/-- What others report in an ack is weighed after what its sender announces. -/
theorem rise_ack (n sender : NodeId) (i : UInt64) (ms : List Member) (r : Report) :
    ∃ r', weigh (if n = sender then (some r).map (raised i) else some r) (said n ms) = some r' ∧
      Rise (.ack sender i ms) n r r' := by
  by_cases announced : n = sender ∧ r.incarnation < i
  · obtain ⟨rfl, higher⟩ := announced
    have first : raised i r = ⟨r.state, i⟩ := if_pos higher
    obtain ⟨r', hw, outcome⟩ := weigh_known ⟨r.state, i⟩ (said n ms)
    have above : r.incarnation < r'.incarnation :=
      UInt64.lt_of_lt_of_le higher (outcome.top _ List.mem_cons_self)
    have tells : (GossipMessage.ack n i ms).tells n = ⟨.alive, i⟩ :: said n ms := by
      simp [GossipMessage.tells]
    refine ⟨r', by rw [if_pos rfl, Option.map_some, first, hw], ?_, fun live _ => ?_, ?_⟩
    · exact iff_of_true above ⟨⟨⟨.alive, i⟩, tells ▸ List.mem_cons_self, higher⟩, by simp⟩
    · rw [tells, ← live i ms rfl higher]
      exact outcome
    · rintro j ms' e -
      cases e
      exact outcome
  · obtain ⟨r', hw, outcome⟩ := weigh_known r (said n ms)
    have first : (if n = sender then (some r).map (raised i) else some r) = some r := by
      split
      next own => exact congrArg some (if_neg fun higher => announced ⟨own, higher⟩)
      next => rfl
    -- an announcement that does not raise the report is older than whatever does
    have old : ∀ w ∈ (if n = sender then [(⟨.alive, i⟩ : Report)] else []), ¬ r.incarnation < w.incarnation := by
      intro w hw higher
      split at hw
      next own =>
        rw [List.mem_singleton.mp hw] at higher
        exact announced ⟨own, higher⟩
      next => cases hw
    refine ⟨r', by rw [first, hw], ?_, fun _ higher => ?_, ?_⟩
    · rw [outcome.lt_iff]
      constructor
      · rintro ⟨w, hw, higher⟩
        exact ⟨⟨w, List.mem_append_right _ hw, higher⟩, by simp⟩
      · rintro ⟨⟨w, hw, higher⟩, _⟩
        exact ⟨w, (List.mem_append.mp hw).resolve_left fun hw => old w hw higher, higher⟩
    · refine (outcome_append_of_lt fun w hw => ?_).mpr ((outcome_cons_of_lt higher).mp outcome)
      exact UInt64.lt_of_le_of_lt (UInt64.not_lt.mp (old w hw)) higher
    · rintro j ms' e higher
      cases e
      exact absurd ⟨rfl, higher⟩ announced

theorem rise_report {self n : NodeId} (peer : n ≠ self) (m : GossipMessage) (r : Report) :
    ∃ r', m.report self n (some r) = some r' ∧ Rise m n r r' := by
  unfold GossipMessage.report
  cases m with
  | ping sender rpc i =>
    by_cases hn : n = sender
    · subst hn
      exact ⟨_, if_pos rfl, rise_ping n rpc i r⟩
    · exact ⟨r, if_neg hn, Rise.of_silence (by simp [GossipMessage.tells, hn]) (by simp) rfl⟩
  | ack sender i ms =>
    dsimp only
    rw [if_neg peer]
    exact rise_ack n sender i ms r
  | join node =>
    by_cases hn : n = node.id
    · subst hn
      exact ⟨_, if_pos rfl, rise_join node r⟩
    · exact ⟨r, if_neg hn, Rise.of_silence (by simp [GossipMessage.tells, hn]) (by simp) rfl⟩
  | leave node =>
    dsimp only
    split
    next => exact ⟨_, rfl, Rise.of_silence rfl (by simp) rfl⟩
    next => exact ⟨r, rfl, Rise.of_silence rfl (by simp) rfl⟩
  | suspect node i =>
    by_cases hn : n = node
    · subst hn
      exact ⟨_, if_pos ⟨rfl, peer⟩, rise_suspect n i r⟩
    · exact ⟨r, if_neg fun h => hn h.1, Rise.of_silence (by simp [GossipMessage.tells, hn]) (by simp) rfl⟩
  | alive node i =>
    by_cases hn : n = node
    · subst hn
      exact ⟨_, if_pos rfl, rise_alive n i r⟩
    · exact ⟨r, if_neg hn, Rise.of_silence (by simp [GossipMessage.tells, hn]) (by simp) rfl⟩

namespace Service

/-- The incarnation of a peer that is known rises exactly when a message tells a higher one, or suspects the peer while it
is recorded as alive. The state that the message tells for that incarnation is then recorded, unless the message is an ack
by which the peer itself announces a higher incarnation: then the state stays, until what the ack reports of its sender
replaces it. -/
theorem rising_brings_state {s : Service} {now : Nat} {src : SocketAddress} {m : GossipMessage} {step : Step}
    (h : s.receive now src m = .ok step) {n : NodeId} (peer : n ≠ s.self.id) {r : Report} (known : s.report? n = some r) :
    ∃ r', step.service.report? n = some r' ∧ Rise m n r r' := by
  obtain ⟨r', hr, rise⟩ := rise_report peer m r
  exact ⟨r', by rw [report?_receive h, known, hr], rise⟩

def departure : List Occurrence :=
  [.hears 1 (.v4 2 7946) (.join ⟨⟨"b"⟩, .v4 2 7946, .v4 2 7947, .alive, 1⟩), .hears 2 (.v4 2 7946) (.leave ⟨"b"⟩)]

theorem rising_brings_state_back :
    ∃ s step r', (start ⟨"a"⟩ (.v4 1 7946) (.v4 1 7947) 0).run departure = .ok s ∧
      s.report? ⟨"b"⟩ = some ⟨.dead, 1⟩ ∧
      s.receive 3 (.v4 2 7946) (.ping ⟨"b"⟩ (.v4 2 7947) 2) = .ok step ∧
      step.service.report? ⟨"b"⟩ = some r' ∧ r' = ⟨.alive, 2⟩ := by
  obtain ⟨s, hs⟩ : ∃ s, (start ⟨"a"⟩ (.v4 1 7946) (.v4 1 7947) 0).run departure = .ok s := ⟨_, rfl⟩
  obtain ⟨step, hstep⟩ : ∃ step, s.receive 3 (.v4 2 7946) (.ping ⟨"b"⟩ (.v4 2 7947) 2) = .ok step := by
    cases hs
    exact ⟨_, rfl⟩
  have dead : s.report? ⟨"b"⟩ = some ⟨.dead, 1⟩ := by cases hs; rfl
  have own : s.self.id = ⟨"a"⟩ := by cases hs; rfl
  obtain ⟨r', hr, rise⟩ := rising_brings_state hstep (n := ⟨"b"⟩) (by rw [own]; decide) dead
  have higher := rise.iff.mpr ⟨⟨⟨.alive, 2⟩, by decide, by decide⟩, by simp⟩
  have told := (rise.brings (by simp) higher).mem
  exact ⟨s, step, r', hs, dead, hstep, hr, by simpa [GossipMessage.tells] using told⟩

/-- An ack may raise the incarnation of a peer that is recorded as dead, and leave it dead. -/
theorem raised_and_dead :
    ¬ ∀ id gossipAddr rpcAddr now os s, (start id gossipAddr rpcAddr now).run os = .ok s →
      ∀ now src m step, s.receive now src m = .ok step → ∀ n r r', n ≠ s.self.id →
        s.report? n = some r → step.service.report? n = some r' → r.incarnation < r'.incarnation → r' ∈ m.tells n := by
  intro brings
  have told : (⟨.dead, 2⟩ : Report) ∈ [(⟨.alive, 2⟩ : Report)] :=
    brings ⟨"a"⟩ (.v4 1 7946) (.v4 1 7947) 0 departure _ rfl 3 (.v4 2 7946) (.ack ⟨"b"⟩ 2 []) _ rfl
      ⟨"b"⟩ ⟨.dead, 1⟩ ⟨.dead, 2⟩ (by decide) rfl rfl (by decide)
  exact absurd told (by decide)

end Service

end Workshare.Gossip
