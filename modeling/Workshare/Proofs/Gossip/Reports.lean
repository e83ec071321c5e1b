import Mathlib.Data.List.Induction
import Workshare.Proofs.Gossip.Records

namespace Workshare

/-- A state of a member, and the incarnation that it is reported for. -/
structure Report where
  state : MemberState
  incarnation : UInt64
  deriving DecidableEq, Repr

/-- A report after what was recorded before. -/
def Report.over (w : Report) : Option Report → Report
  | none => w
  | some r =>
    if r.incarnation < w.incarnation then w
    else if w.incarnation = r.incarnation ∧ w.state = .alive ∧ r.state = .suspect then w
    else r

def Member.report (m : Member) : Report :=
  ⟨m.state, m.incarnation⟩

namespace Gossip

def Known.report (k : Known) : Report :=
  k.member.report

def said (n : NodeId) (ms : List Member) : List Report :=
  (about n ms).map Member.report

def weigh (r : Option Report) (ws : List Report) : Option Report :=
  ws.foldl (fun r w => some (w.over r)) r

def statesAt (i : UInt64) (ws : List Report) : List MemberState :=
  (ws.filter (·.incarnation = i)).map (·.state)

/-- What reports for one incarnation make up. The first one stands, but a suspicion is taken back. -/
def ruling (states : List MemberState) : MemberState :=
  if states.head? = some .dead then .dead else if .alive ∈ states then .alive else .suspect

/-- A sign of life by a member that is known. -/
def refreshed (i : UInt64) (r : Report) : Report :=
  if r.incarnation < i then ⟨.alive, i⟩ else r

/-- The announcement of an incarnation by a member that is known. -/
def raised (i : UInt64) (r : Report) : Report :=
  if r.incarnation < i then { r with incarnation := i } else r

/-- A suspicion against a member that is known. -/
def doubted (i : UInt64) (r : Report) : Report :=
  if r.incarnation ≤ i ∧ r.state = .alive then ⟨.suspect, i⟩ else r

end Gossip

namespace GossipMessage

open Gossip

/-- What a message tells of a member. Whoever sends a ping or an ack is alive. -/
def tells (n : NodeId) : GossipMessage → List Report
  | .ping sender _ i => if n = sender then [⟨.alive, i⟩] else []
  | .ack sender i ms => (if n = sender then [⟨.alive, i⟩] else []) ++ said n ms
  | .join node => if n = node.id then [node.report] else []
  | .leave _ => []
  | .suspect node i => if n = node then [⟨.suspect, i⟩] else []
  | .alive node i => if n = node then [⟨.alive, i⟩] else []

/-- What becomes of the report that node `self` has of member `n`. Neither addresses nor instants matter. -/
def report (self n : NodeId) (r : Option Report) : GossipMessage → Option Report
  | .ping sender _ i => if n = sender then some (r.elim ⟨.alive, i⟩ (refreshed i)) else r
  | .ack sender i ms =>
    let r := if n = sender then r.map (raised i) else r
    if n = self then r else weigh r (said n ms)
  | .join node => if n = node.id then some node.report else r
  | .leave node => if n = node then r.map fun r => { r with state := .dead } else r
  | .suspect node i => if n = node ∧ n ≠ self then r.map (doubted i) else r
  | .alive node i => if n = node then r.map fun r => (⟨.alive, i⟩ : Report).over (some r) else r

end GossipMessage

namespace Gossip

/-- What a service has recorded of a member's state. -/
def Service.report? (s : Service) (n : NodeId) : Option Report :=
  (s.get? n).map Known.report

theorem weigh_cons (r : Option Report) (w : Report) (ws : List Report) :
    weigh r (w :: ws) = weigh (some (w.over r)) ws :=
  rfl

theorem weigh_append (r : Option Report) (ws vs : List Report) : weigh r (ws ++ vs) = weigh (weigh r ws) vs :=
  List.foldl_append

theorem weigh_concat (r : Option Report) (ws : List Report) (w : Report) :
    weigh r (ws ++ [w]) = some (w.over (weigh r ws)) := by
  rw [weigh_append]
  rfl

theorem weigh_some (r : Report) (ws : List Report) : ∃ r', weigh (some r) ws = some r' := by
  induction ws generalizing r with
  | nil => exact ⟨r, rfl⟩
  | cons w ws ih => exact ih _

theorem weigh_eq_none {r : Option Report} {ws : List Report} : weigh r ws = none ↔ r = none ∧ ws = [] := by
  cases ws with
  | nil => exact ⟨fun h => ⟨h, rfl⟩, fun h => h.1⟩
  | cons w ws =>
    obtain ⟨r', hr⟩ := weigh_some (w.over r) ws
    rw [weigh_cons, hr]
    simp

theorem statesAt_append (i : UInt64) (ws vs : List Report) :
    statesAt i (ws ++ vs) = statesAt i ws ++ statesAt i vs := by
  rw [statesAt, List.filter_append, List.map_append]
  rfl

theorem statesAt_eq_nil {i : UInt64} {ws : List Report} (h : ∀ w ∈ ws, w.incarnation ≠ i) : statesAt i ws = [] := by
  rw [statesAt, List.map_eq_nil_iff, List.filter_eq_nil_iff]
  intro w hw
  simpa using h w hw

theorem mem_statesAt {i : UInt64} {ws : List Report} {s : MemberState} :
    s ∈ statesAt i ws ↔ (⟨s, i⟩ : Report) ∈ ws := by
  simp only [statesAt, List.mem_map, List.mem_filter, decide_eq_true_eq]
  constructor
  · rintro ⟨w, ⟨hw, rfl⟩, rfl⟩
    exact hw
  · intro h
    exact ⟨⟨s, i⟩, ⟨h, rfl⟩, rfl⟩

theorem ruling_single (s : MemberState) : ruling [s] = s := by
  cases s <;> rfl

/-- One report more changes the ruling only by taking a suspicion back. -/
theorem ruling_concat {ss : List MemberState} (h : ss ≠ []) (s : MemberState) :
    ruling (ss ++ [s]) = if s = .alive ∧ ruling ss = .suspect then .alive else ruling ss := by
  obtain ⟨a, ss, rfl⟩ := List.exists_cons_of_ne_nil h
  unfold ruling
  cases a <;> cases s <;> by_cases ha : MemberState.alive ∈ ss <;> simp [ha]

/-- A report is the outcome of some: it is one of them, none has a higher incarnation, and those for this incarnation
make up its state. -/
structure Outcome (ws : List Report) (r : Report) : Prop where
  mem : r ∈ ws
  top : ∀ w ∈ ws, w.incarnation ≤ r.incarnation
  state : r.state = ruling (statesAt r.incarnation ws)

theorem Outcome.single (w : Report) : Outcome [w] w := by
  refine ⟨List.mem_singleton_self w, fun v hv => ?_, ?_⟩
  · rw [List.mem_singleton.mp hv]
    exact UInt64.le_refl _
  · simp [statesAt, ruling_single]

theorem Outcome.concat {ws : List Report} {r : Report} (h : Outcome ws r) (w : Report) :
    Outcome (ws ++ [w]) (w.over (some r)) := by
  have last : w ∈ ws ++ [w] := List.mem_concat_self
  have known : statesAt r.incarnation ws ≠ [] := List.ne_nil_of_mem (mem_statesAt.mpr h.mem)
  rw [Report.over]
  -- either the word is above all before it, or the words that rule are still those at the same incarnation
  split
  next higher =>
    have none : statesAt w.incarnation ws = [] := statesAt_eq_nil fun v hv e =>
      UInt64.lt_irrefl _ (UInt64.lt_of_le_of_lt (e ▸ h.top v hv) higher)
    refine ⟨last, fun v hv => ?_, ?_⟩
    · rcases List.mem_append.mp hv with hv | hv
      · exact UInt64.le_trans (h.top v hv) (UInt64.le_of_lt higher)
      · rw [List.mem_singleton.mp hv]
        exact UInt64.le_refl _
    · rw [statesAt_append, none, List.nil_append]
      simp [statesAt, ruling_single]
  next notHigher =>
    have top : ∀ v ∈ ws ++ [w], v.incarnation ≤ r.incarnation := by
      intro v hv
      rcases List.mem_append.mp hv with hv | hv
      · exact h.top v hv
      · rw [List.mem_singleton.mp hv]
        exact UInt64.not_lt.mp notHigher
    split
    next back =>
      obtain ⟨same, live, suspect⟩ := back
      refine ⟨last, fun v hv => same ▸ top v hv, ?_⟩
      have here : statesAt r.incarnation [w] = [.alive] := by simp [statesAt, same, live]
      rw [same, statesAt_append, here, ruling_concat known, if_pos ⟨rfl, h.state ▸ suspect⟩, live]
    next stands =>
      refine ⟨List.mem_append_left _ h.mem, top, ?_⟩
      rw [statesAt_append]
      by_cases same : w.incarnation = r.incarnation
      · have here : statesAt r.incarnation [w] = [w.state] := by simp [statesAt, same]
        rw [here, ruling_concat known, if_neg fun e => stands ⟨same, e.1, h.state.trans e.2⟩]
        exact h.state
      · have here : statesAt r.incarnation [w] = [] := by simp [statesAt, same]
        rw [here, List.append_nil]
        exact h.state

/-- What is recorded after reports is their outcome, what was recorded before being the first of them. -/
theorem weigh_top {r : Option Report} {ws : List Report} {r' : Report} (h : weigh r ws = some r') :
    Outcome (r.toList ++ ws) r' := by
  induction ws using List.reverseRecOn generalizing r' with
  | nil =>
    subst h
    exact Outcome.single r'
  | append_singleton ws w ih =>
    rw [weigh_concat] at h
    cases h
    rw [← List.append_assoc]
    cases hv : weigh r ws with
    | none =>
      obtain ⟨rfl, rfl⟩ := weigh_eq_none.mp hv
      exact Outcome.single w
    | some v => exact (ih hv).concat w

theorem weigh_known (r : Report) (ws : List Report) : ∃ r', weigh (some r) ws = some r' ∧ Outcome (r :: ws) r' := by
  obtain ⟨r', h⟩ := weigh_some r ws
  exact ⟨r', h, weigh_top h⟩

theorem report_reconcile (now : Nat) (m : Member) (k : Known) :
    (Service.reconcile now m k).report = m.report.over (some k.report) := by
  unfold Service.reconcile Known.report Member.report
  simp only [Report.over, Bool.and_eq_true, decide_eq_true_eq, and_assoc]
  split
  next => rfl
  next =>
    split
    next back => rw [back.1, back.2.1]
    next => rfl

theorem report_told (now : Nat) (r : Option Known) (m : Member) :
    (told now r m).map Known.report = some (m.report.over (r.map Known.report)) := by
  cases r with
  | none => rfl
  | some k => exact congrArg some (report_reconcile now m k)

theorem report_foldl_told (now : Nat) (ms : List Member) (r : Option Known) :
    (ms.foldl (told now) r).map Known.report = weigh (r.map Known.report) (ms.map Member.report) := by
  induction ms generalizing r with
  | nil => rfl
  | cons m ms ih => rw [List.foldl_cons, ih, report_told, List.map_cons, weigh_cons]

theorem report_answered (now : Nat) (i : UInt64) (k : Known) :
    (Service.answered now i k).report = raised i k.report := by
  unfold Service.answered raised Known.report Member.report
  dsimp only
  split <;> rfl

theorem report_heard (now : Nat) (i : UInt64) (k : Known) : (Service.heard now i k).report = refreshed i k.report := by
  unfold Service.heard refreshed Known.report Member.report
  dsimp only
  split <;> rfl

theorem report_suspected (i : UInt64) (k : Known) : (Service.suspected i k).report = doubted i k.report := by
  unfold Service.suspected doubted Known.report Member.report
  simp only [Bool.and_eq_true, decide_eq_true_eq]
  split <;> rfl

theorem report_vouched (now : Nat) (i : UInt64) (k : Known) :
    (Service.vouched now i k).report = (⟨.alive, i⟩ : Report).over (some k.report) := by
  unfold Service.vouched Known.report Member.report
  simp only [Report.over, Bool.and_eq_true, decide_eq_true_eq, true_and]
  split
  next => rfl
  next =>
    split
    next back => rw [back.1]
    next => rfl

theorem report_record (self : NodeId) (now : Nat) (src : SocketAddress) (n : NodeId) (m : GossipMessage)
    (r : Option Known) :
    (m.record self now src n r).map Known.report = m.report self n (r.map Known.report) := by
  have mapped {f : Known → Known} {g : Report → Report} (h : ∀ k, (f k).report = g k.report) (p : Prop) [Decidable p] :
      (if p then r.map f else r).map Known.report = if p then (r.map Known.report).map g else r.map Known.report := by
    split
    next => cases r with
      | none => rfl
      | some k => exact congrArg some (h k)
    next => rfl
  unfold GossipMessage.record GossipMessage.report
  cases m with
  | ping sender rpc i =>
    dsimp only
    split
    next => cases r with
      | none => rfl
      | some k => exact congrArg some (report_heard now i k)
    next => rfl
  | ack sender i ms =>
    dsimp only
    rw [← mapped (report_answered now i)]
    split
    next => rfl
    next => exact report_foldl_told now (about n ms) _
  | join node =>
    dsimp only
    split <;> rfl
  | leave node => exact mapped (fun _ => rfl) _
  | suspect node i => exact mapped (report_suspected i) _
  | alive node i => exact mapped (report_vouched now i) _

theorem Service.report?_receive {s : Service} {now : Nat} {src : SocketAddress} {m : GossipMessage} {step : Step}
    (h : s.receive now src m = .ok step) (n : NodeId) :
    step.service.report? n = m.report s.self.id n (s.report? n) := by
  obtain ⟨_, _, hget⟩ := after_eq (o := .hears now src m) h
  rw [report?, hget, Occurrence.record, report_record, report?]

end Gossip

end Workshare
