import Workshare.Proofs.Gossip.Reports

namespace Workshare.Gossip

/-- The first report of a list for an incarnation. -/
def firstAt (i : UInt64) (ws : List Report) : Option Report :=
  ws.find? (·.incarnation = i)

/-- Lists of reports that are news of incarnation `i` clash when the first report for it is a death in one of them and no
death in another. -/
def Clash (r : Option Report) (wss : List (List Report)) : Prop :=
  ∃ i, (∀ k, r = some k → k.incarnation < i) ∧ (∀ ws ∈ wss, ∀ w ∈ ws, w.incarnation ≤ i) ∧
    ∃ ws ∈ wss, ∃ vs ∈ wss, ∃ w v, firstAt i ws = some w ∧ firstAt i vs = some v ∧ w.state = .dead ∧ v.state ≠ .dead

/-- The incarnation is the highest one in a list of reports. -/
def Peak (i : UInt64) (ws : List Report) : Prop :=
  (∃ w ∈ ws, w.incarnation = i) ∧ ∀ w ∈ ws, w.incarnation ≤ i

/-- The first report for an incarnation is a death. -/
def DeadAt (i : UInt64) (ws : List Report) : Prop :=
  (firstAt i ws).map (·.state) = some .dead

/-- Two sequences of reports make up the same. For the highest incarnation in them, both begin with a death, or neither does
and there is a sign of life in both or in neither. -/
def Alike (ws vs : List Report) : Prop :=
  ws = [] ∧ vs = [] ∨ ∃ i, Peak i ws ∧ Peak i vs ∧ (DeadAt i ws ↔ DeadAt i vs) ∧
    (DeadAt i ws ∨ (⟨.alive, i⟩ ∈ ws ↔ ⟨.alive, i⟩ ∈ vs))

instance (i : UInt64) (ws : List Report) : Decidable (Peak i ws) :=
  inferInstanceAs (Decidable (_ ∧ _))

instance (i : UInt64) (ws : List Report) : Decidable (DeadAt i ws) :=
  inferInstanceAs (Decidable (_ = _))

theorem mem_of_firstAt {i : UInt64} {ws : List Report} {w : Report} (h : firstAt i ws = some w) :
    w ∈ ws ∧ w.incarnation = i :=
  ⟨List.mem_of_find?_eq_some h, by simpa using List.find?_some h⟩

theorem head?_statesAt (i : UInt64) (ws : List Report) : (statesAt i ws).head? = (firstAt i ws).map (·.state) := by
  rw [statesAt, List.head?_map, List.head?_filter]
  rfl

theorem ruling_eq_dead {ss : List MemberState} : ruling ss = .dead ↔ ss.head? = some .dead := by
  unfold ruling
  split
  next h => simp [h]
  next h =>
    split <;> simp [h]

theorem Outcome.peak {ws : List Report} {r : Report} (h : Outcome ws r) : Peak r.incarnation ws :=
  ⟨⟨r, h.mem, rfl⟩, h.top⟩

theorem Peak.unique {i j : UInt64} {ws : List Report} (hi : Peak i ws) (hj : Peak j ws) : i = j := by
  obtain ⟨⟨w, hw, rfl⟩, topi⟩ := hi
  obtain ⟨⟨v, hv, rfl⟩, topj⟩ := hj
  exact UInt64.le_antisymm (topj w hw) (topi v hv)

/-- A member ends up dead when the first report for the incarnation that counts is a death. -/
theorem Outcome.state_eq_dead {ws : List Report} {r : Report} (h : Outcome ws r) :
    r.state = .dead ↔ DeadAt r.incarnation ws := by
  rw [h.state, ruling_eq_dead, head?_statesAt]
  rfl

/-- Otherwise it is alive when any report for it says so. -/
theorem Outcome.state_eq_alive {ws : List Report} {r : Report} (h : Outcome ws r) (lives : ¬ DeadAt r.incarnation ws) :
    r.state = .alive ↔ ⟨.alive, r.incarnation⟩ ∈ ws := by
  have first : (statesAt r.incarnation ws).head? ≠ some .dead := by rwa [head?_statesAt]
  rw [h.state, ← mem_statesAt, ruling, if_neg first]
  split <;> simp [*]

theorem Outcome.eq_of_alike {ws vs : List Report} {w v : Report} (hw : Outcome ws w) (hv : Outcome vs v)
    (alike : Alike ws vs) : w = v := by
  rcases alike with ⟨rfl, _⟩ | ⟨i, pw, pv, dead, alive⟩
  · cases hw.mem
  · have iw := hw.peak.unique pw
    have iv := hv.peak.unique pv
    have dw := hw.state_eq_dead
    have dv := hv.state_eq_dead
    have lw := hw.state_eq_alive
    have lv := hv.state_eq_alive
    obtain ⟨sw, inc⟩ := w
    obtain ⟨sv, inc'⟩ := v
    dsimp only at *
    subst iw iv
    cases sw <;> cases sv <;> simp_all

/-- What reports leave of what was recorded before. -/
theorem weigh_alike (r : Option Report) (ws vs : List Report) :
    weigh r ws = weigh r vs ↔ Alike (r.toList ++ ws) (r.toList ++ vs) := by
  have empty {us : List Report} : weigh r us = none ↔ r.toList ++ us = [] := by
    rw [weigh_eq_none, List.append_eq_nil_iff, Option.toList_eq_nil_iff]
  constructor
  · intro same
    cases hw : weigh r ws with
    | none => exact .inl ⟨empty.mp hw, empty.mp (same.symm.trans hw)⟩
    | some w =>
      have ow := weigh_top hw
      have ov := weigh_top (same.symm.trans hw)
      refine .inr ⟨w.incarnation, ow.peak, ov.peak, ow.state_eq_dead.symm.trans ov.state_eq_dead, ?_⟩
      by_cases dead : DeadAt w.incarnation (r.toList ++ ws)
      · exact .inl dead
      · have lives : ¬ DeadAt w.incarnation (r.toList ++ vs) := fun e => dead (ow.state_eq_dead.mp (ov.state_eq_dead.mpr e))
        exact .inr ((ow.state_eq_alive dead).symm.trans (ov.state_eq_alive lives))
  · intro alike
    cases hw : weigh r ws with
    | none =>
      rcases alike with ⟨_, e⟩ | ⟨i, ⟨⟨x, hx, _⟩, _⟩, _⟩
      · exact (empty.mpr e).symm
      · rw [empty.mp hw] at hx
        cases hx
    | some w =>
      cases hv : weigh r vs with
      | none =>
        rcases alike with ⟨e, _⟩ | ⟨i, _, ⟨⟨x, hx, _⟩, _⟩, _⟩
        · cases (empty.mpr e).symm.trans hw
        · rw [empty.mp hv] at hx
          cases hx
      | some v => exact congrArg some ((weigh_top hw).eq_of_alike (weigh_top hv) alike)

theorem clear_of_no_deaths {r : Option Report} {wss : List (List Report)}
    (h : ∀ ws ∈ wss, ∀ w ∈ ws, w.state ≠ .dead) : ¬ Clash r wss := by
  rintro ⟨i, _, _, ws, hws, _, _, w, _, first, _, dead, _⟩
  exact h ws hws w (mem_of_firstAt first).1 dead

/-- The first report of lists that follow each other is the first of one of them. -/
theorem firstAt_flatten {i : UInt64} {wss : List (List Report)} {w : Report} (h : firstAt i wss.flatten = some w) :
    ∃ ws ∈ wss, firstAt i ws = some w := by
  rw [firstAt, List.find?_flatten] at h
  exact List.exists_of_findSome?_eq_some h

theorem clash_perm {r : Option Report} {wss vss : List (List Report)} (perm : wss.Perm vss) :
    Clash r wss ↔ Clash r vss := by
  simp only [Clash, perm.mem_iff]

/-- Where no lists clash, the first report for the highest incarnation is a death if one of them begins with one, or if it
is what was recorded before. -/
theorem deadAt_iff {r : Option Report} {wss : List (List Report)} (clear : ¬ Clash r wss) {i : UInt64}
    (top : ∀ w ∈ r.toList ++ wss.flatten, w.incarnation ≤ i) :
    DeadAt i (r.toList ++ wss.flatten) ↔ r = some ⟨.dead, i⟩ ∨
      (∀ k, r = some k → k.incarnation < i) ∧ ∃ ws ∈ wss, ∃ w, firstAt i ws = some w ∧ w.state = .dead := by
  unfold DeadAt
  rw [← head?_statesAt]
  by_cases recorded : ∃ k, r = some k ∧ k.incarnation = i
  · obtain ⟨⟨state, i⟩, rfl, rfl⟩ := recorded
    simp [statesAt]
  · have news : ∀ k, r = some k → k.incarnation < i := by
      rintro k rfl
      refine Std.lt_of_le_of_ne (top k (by simp)) fun e => recorded ⟨k, rfl, e⟩
    have old : statesAt i r.toList = [] := statesAt_eq_nil fun w hw e =>
      recorded ⟨w, Option.mem_toList.mp hw, e⟩
    have top' : ∀ ws ∈ wss, ∀ w ∈ ws, w.incarnation ≤ i := fun ws hws w hw =>
      top w (List.mem_append_right _ (List.mem_flatten_of_mem hws hw))
    rw [statesAt_append, old, List.nil_append, head?_statesAt, Option.map_eq_some_iff]
    constructor
    · rintro ⟨w, first, dead⟩
      obtain ⟨ws, hws, hw⟩ := firstAt_flatten first
      exact .inr ⟨news, ws, hws, w, hw, dead⟩
    · rintro (rfl | ⟨_, ws, hws, w, hw, dead⟩)
      · exact absurd ⟨_, rfl, rfl⟩ recorded
      · obtain ⟨mem, at_i⟩ := mem_of_firstAt hw
        obtain ⟨v, first⟩ : ∃ v, firstAt i wss.flatten = some v :=
          Option.isSome_iff_exists.mp (List.find?_isSome.mpr
            ⟨w, List.mem_flatten_of_mem hws mem, decide_eq_true at_i⟩)
        obtain ⟨vs, hvs, hv⟩ := firstAt_flatten first
        refine ⟨v, first, Classical.byContradiction fun lives => clear ?_⟩
        exact ⟨i, news, top', ws, hws, vs, hvs, w, v, hw, hv, dead, lives⟩

theorem weigh_perm {r : Option Report} {wss vss : List (List Report)} (perm : wss.Perm vss) (clear : ¬ Clash r wss) :
    weigh r wss.flatten = weigh r vss.flatten := by
  have flat : (r.toList ++ wss.flatten).Perm (r.toList ++ vss.flatten) := perm.flatten.append_left _
  rw [weigh_alike]
  cases hw : weigh r wss.flatten with
  | none =>
    obtain ⟨rfl, empty⟩ := weigh_eq_none.mp hw
    rw [empty] at flat ⊢
    exact .inl ⟨rfl, flat.symm.eq_nil⟩
  | some w =>
    have outcome := weigh_top hw
    have top : ∀ v ∈ r.toList ++ vss.flatten, v.incarnation ≤ w.incarnation := fun v hv =>
      outcome.top v (flat.mem_iff.mpr hv)
    refine .inr ⟨w.incarnation, outcome.peak, ⟨⟨w, flat.mem_iff.mp outcome.mem, rfl⟩, top⟩, ?_, .inr flat.mem_iff⟩
    rw [deadAt_iff clear outcome.top, deadAt_iff (mt (clash_perm perm).mpr clear) top]
    simp only [perm.mem_iff]

/-- The list that is heard first decides whether news of a member are that it is dead. -/
theorem deadAt_append {r : Option Report} {i : UInt64} {ws vs : List Report} {w : Report}
    (news : ∀ k, r = some k → k.incarnation < i) (first : firstAt i ws = some w) :
    DeadAt i (r.toList ++ (ws ++ vs)) ↔ w.state = .dead := by
  have old : firstAt i r.toList = none := by
    refine List.find?_eq_none.mpr fun k hk e => UInt64.lt_irrefl i ?_
    exact of_decide_eq_true e ▸ news k (Option.mem_toList.mp hk)
  unfold firstAt at first old
  simp [DeadAt, firstAt, old, first]

/-- Two lists leave the same in both orders exactly when they do not clash. -/
theorem weigh_swap (r : Option Report) (ws vs : List Report) :
    weigh r (ws ++ vs) = weigh r (vs ++ ws) ↔ ¬ Clash r [ws, vs] := by
  constructor
  · rintro same ⟨i, news, top, xs, hxs, ys, hys, x, y, hx, hy, dead, lives⟩
    have differ : ∀ {w v}, firstAt i ws = some w → firstAt i vs = some v → (w.state = .dead ↔ v.state = .dead) := by
      intro w v hw hv
      obtain ⟨mem, at_i⟩ := mem_of_firstAt hw
      have peak : Peak i (r.toList ++ (ws ++ vs)) := by
        refine ⟨⟨w, by simp [mem], at_i⟩, fun u hu => ?_⟩
        simp only [List.mem_append, Option.mem_toList] at hu
        rcases hu with hu | hu | hu
        · exact UInt64.le_of_lt (news u hu)
        · exact top ws (by simp) u hu
        · exact top vs (by simp) u hu
      rcases (weigh_alike r _ _).mp same with ⟨empty, _⟩ | ⟨j, peak', _, dead, _⟩
      · obtain ⟨⟨u, hu, _⟩, _⟩ := peak
        rw [empty] at hu
        cases hu
      · rw [← deadAt_append news hw, ← deadAt_append news hv, peak.unique peak']
        exact dead
    simp only [List.mem_cons, List.not_mem_nil, or_false] at hxs hys
    rcases hxs with rfl | rfl <;> rcases hys with rfl | rfl
    · cases hx.symm.trans hy
      exact lives dead
    · exact lives ((differ hx hy).mp dead)
    · exact lives ((differ hy hx).mpr dead)
    · cases hx.symm.trans hy
      exact lives dead
  · intro clear
    simpa using weigh_perm (List.Perm.swap vs ws []) clear

/-- An ack: who sends it, the incarnation that it announces, and the members that it lists. -/
structure Ack where
  sender : NodeId
  incarnation : UInt64
  members : List Member

/-- An ack as it arrives. -/
structure Delivery where
  now : Nat
  src : SocketAddress
  ack : Ack

def Ack.message (a : Ack) : GossipMessage :=
  .ack a.sender a.incarnation a.members

def Delivery.occurrence (d : Delivery) : Occurrence :=
  .hears d.now d.src d.ack.message

/-- What an ack reports of a member of which `r` is recorded. A higher incarnation that the member announces itself is a
sign of life; a stranger announces nothing. -/
def Ack.reports (n : NodeId) (r : Option Report) (a : Ack) : List Report :=
  (if n = a.sender then ((r.filter (·.incarnation < a.incarnation)).map fun _ => ⟨.alive, a.incarnation⟩).toList else []) ++
    said n a.members

/-- If the sender of an ack announces a higher incarnation than is recorded, it is recorded alive. -/
def Ack.Undoubted (n : NodeId) (r : Option Report) (a : Ack) : Prop :=
  n = a.sender → ∀ k ∈ r, k.incarnation < a.incarnation → k.state = .alive

instance (n : NodeId) (r : Option Report) (a : Ack) : Decidable (a.Undoubted n r) :=
  inferInstanceAs (Decidable (_ → _))

theorem raised_of_le {i : UInt64} {r : Report} (h : i ≤ r.incarnation) : raised i r = r :=
  if_neg (UInt64.not_lt.mpr h)

theorem map_raised {i : UInt64} {r : Option Report} (alive : ∀ k ∈ r, k.incarnation < i → k.state = .alive) :
    r.map (raised i) = weigh r ((r.filter (·.incarnation < i)).map fun _ => ⟨.alive, i⟩).toList := by
  cases r with
  | none => rfl
  | some k =>
    by_cases higher : k.incarnation < i
    · have alive := alive k rfl higher
      simp [raised, weigh, Report.over, Option.filter, higher, alive]
    · simp [raised, weigh, Option.filter, higher]

namespace Ack

variable {self n : NodeId} (peer : n ≠ self) (a : Ack)

include peer

theorem report_message (r : Option Report) :
    a.message.report self n r =
      weigh (if n = a.sender then r.map (raised a.incarnation) else r) (said n a.members) :=
  if_neg peer

theorem report_eq_none {r : Option Report} :
    a.message.report self n r = none ↔ r = none ∧ said n a.members = [] := by
  rw [a.report_message peer, weigh_eq_none]
  split <;> simp

theorem report_eq_weigh {r : Option Report} (undoubted : a.Undoubted n r) :
    a.message.report self n r = weigh r (a.reports n r) := by
  rw [a.report_message peer, reports, weigh_append]
  split
  next own => rw [map_raised (undoubted own)]
  next => rfl

/-- What two acks leave in both orders. -/
theorem report_swap (b : Ack) {r : Option Report} (ha : a.Undoubted n r) (hb : b.Undoubted n r)
    (hab : b.Undoubted n (a.message.report self n r)) (hba : a.Undoubted n (b.message.report self n r)) :
    b.message.report self n (a.message.report self n r) = a.message.report self n (b.message.report self n r) ↔
      Alike (r.toList ++ (a.reports n r ++ b.reports n (a.message.report self n r)))
        (r.toList ++ (b.reports n r ++ a.reports n (b.message.report self n r))) := by
  rw [← weigh_alike, weigh_append, weigh_append, ← a.report_eq_weigh peer ha, ← b.report_eq_weigh peer hb,
    ← a.report_eq_weigh peer hba, ← b.report_eq_weigh peer hab]

theorem report_other (h : n ≠ a.sender) (r : Option Report) :
    a.message.report self n r = weigh r (said n a.members) := by
  rw [a.report_message peer, if_neg h]

/-- Two acks leave the same of a member that sends neither of them, unless they clash. -/
theorem report_swap_other (b : Ack) (ha : n ≠ a.sender) (hb : n ≠ b.sender) (r : Option Report) :
    b.message.report self n (a.message.report self n r) = a.message.report self n (b.message.report self n r) ↔
      ¬ Clash r [said n a.members, said n b.members] := by
  rw [a.report_other peer ha, a.report_other peer ha, b.report_other peer hb, b.report_other peer hb, ← weigh_append,
    ← weigh_append]
  exact weigh_swap r _ _

/-- Acks whose announcements are no news are as good as lists of reports. -/
theorem foldl_report (as : List Ack) {r : Option Report}
    (stale : ∀ a ∈ as, n = a.sender → ∃ k, r = some k ∧ a.incarnation ≤ k.incarnation) :
    as.foldl (fun r a => a.message.report self n r) r = weigh r (as.map fun a => said n a.members).flatten := by
  induction as generalizing r with
  | nil => rfl
  | cons a as ih =>
    have first : a.message.report self n r = weigh r (said n a.members) := by
      rw [a.report_message peer]
      split
      next own =>
        obtain ⟨k, rfl, le⟩ := stale a List.mem_cons_self own
        rw [Option.map_some, raised_of_le le]
      next => rfl
    rw [List.foldl_cons, first, ih, List.map_cons, List.flatten_cons, weigh_append]
    intro b hb own
    obtain ⟨k, rfl, le⟩ := stale b (List.mem_cons_of_mem _ hb) own
    obtain ⟨k', hk, outcome⟩ := weigh_known k (said n a.members)
    exact ⟨k', hk, UInt64.le_trans le (outcome.top k List.mem_cons_self)⟩

end Ack

theorem report_own {self : NodeId} {a : Ack} (h : a.sender ≠ self) (r : Option Report) :
    a.message.report self self r = r := by
  unfold Ack.message GossipMessage.report
  dsimp only
  rw [if_pos rfl, if_neg (Ne.symm h)]

namespace Service

/-- Acks are always accepted, and move what is reported of each member by itself. -/
theorem run_deliveries (ds : List Delivery) (s : Service) :
    ∃ t, s.run (ds.map (·.occurrence)) = .ok t ∧
      ∀ n, t.report? n = (ds.map (·.ack)).foldl (fun r a => a.message.report s.self.id n r) (s.report? n) := by
  induction ds generalizing s with
  | nil => exact ⟨s, rfl, fun _ => rfl⟩
  | cons d ds ih =>
    obtain ⟨step, hd⟩ : ∃ step, s.after d.occurrence = .ok step := ⟨_, rfl⟩
    obtain ⟨t, ht, reports⟩ := ih step.service
    refine ⟨t, ?_, fun n => ?_⟩
    · rw [List.map_cons, run_cons, hd]
      exact ht
    · rw [reports, report?_receive hd, (after_eq hd).1]
      rfl

theorem contains_eq (s : Service) (n : NodeId) : s.members.contains n = (s.report? n).isSome :=
  Option.isSome_map.symm

/-- Two acks leave the same members in both orders, and the same record of the node itself. Of a member that sends neither
of them they leave the same state and incarnation exactly when their lists do not clash. Of one that sends one, and that is
recorded alive whenever it announces a higher incarnation than is recorded, they leave the same exactly when the reports
that they make of it in the two orders are alike. In any number of acks that announce nothing new of a member and do not
clash, two nodes that begin with the same report of it end with the same report, whatever the order in which each of them
hears the acks. -/
theorem acks_commute :
    (∀ (s : Service) (a b : Ack) (ds es : List Delivery), a.sender ≠ s.self.id → b.sender ≠ s.self.id →
      ds.map (·.ack) = [a, b] → es.map (·.ack) = [b, a] →
      ∃ t u, s.run (ds.map (·.occurrence)) = .ok t ∧ s.run (es.map (·.occurrence)) = .ok u ∧
        (∀ n, t.members.contains n = u.members.contains n) ∧ t.report? s.self.id = u.report? s.self.id ∧
        ∀ n r, n ≠ s.self.id → s.report? n = r →
          (n ≠ a.sender → n ≠ b.sender →
            (t.report? n = u.report? n ↔ ¬ Clash r [said n a.members, said n b.members])) ∧
          (a.Undoubted n r → b.Undoubted n r → b.Undoubted n (a.message.report s.self.id n r) →
            a.Undoubted n (b.message.report s.self.id n r) →
            (t.report? n = u.report? n ↔
              Alike (r.toList ++ (a.reports n r ++ b.reports n (a.message.report s.self.id n r)))
                (r.toList ++ (b.reports n r ++ a.reports n (b.message.report s.self.id n r)))))) ∧
    ∀ (s t : Service) (ds es : List Delivery), (ds.map (·.ack)).Perm (es.map (·.ack)) →
      ∃ s' t', s.run (ds.map (·.occurrence)) = .ok s' ∧ t.run (es.map (·.occurrence)) = .ok t' ∧
        ∀ n r, n ≠ s.self.id → n ≠ t.self.id → s.report? n = r → t.report? n = r →
          (∀ a ∈ ds.map (·.ack), n = a.sender → ∃ k, r = some k ∧ a.incarnation ≤ k.incarnation) →
          ¬ Clash r ((ds.map (·.ack)).map fun a => said n a.members) → s'.report? n = t'.report? n := by
  constructor
  · intro s a b ds es ha hb hds hes
    obtain ⟨t, ht, reports⟩ := run_deliveries ds s
    obtain ⟨u, hu, reports'⟩ := run_deliveries es s
    simp only [hds, hes, List.foldl_cons, List.foldl_nil] at reports reports'
    have own : t.report? s.self.id = u.report? s.self.id := by
      simp only [reports, reports', report_own ha, report_own hb]
    refine ⟨t, u, ht, hu, fun n => ?_, own, fun n r peer hr => ?_⟩
    · by_cases peer : n = s.self.id
      · rw [contains_eq, contains_eq, peer, own]
      · rw [contains_eq, contains_eq, Bool.eq_iff_iff, Option.isSome_iff_ne_none, Option.isSome_iff_ne_none, reports,
          reports', ne_eq, ne_eq, a.report_eq_none peer, b.report_eq_none peer, a.report_eq_none peer,
          b.report_eq_none peer, and_right_comm]
    · rw [reports, reports', hr]
      exact ⟨fun other other' => a.report_swap_other peer b other other' r, a.report_swap peer b⟩
  · intro s t ds es perm
    obtain ⟨s', hs, reports⟩ := run_deliveries ds s
    obtain ⟨t', ht, reports'⟩ := run_deliveries es t
    refine ⟨s', t', hs, ht, fun n r peer peer' hr hr' stale clear => ?_⟩
    have stale' : ∀ a ∈ es.map (·.ack), n = a.sender → ∃ k, r = some k ∧ a.incarnation ≤ k.incarnation :=
      fun a ha => stale a (perm.mem_iff.mpr ha)
    -- no announcement raises anything, so that only the words are left, and these in any order
    rw [reports, reports', hr, hr', Ack.foldl_report peer _ stale, Ack.foldl_report peer' _ stale']
    exact weigh_perm (perm.map _) clear

/-- A node with a peer x that has introduced itself. -/
def acquainted (id : NodeId) : Except Abort Service :=
  (start id (.v4 1 7946) (.v4 1 7947) 0).run
    [.hears 1 (.v4 3 7946) (.join ⟨⟨"x"⟩, .v4 3 7946, .v4 3 7947, .alive, 1⟩)]

/-- An ack from node b or c, or from x itself, that lists x in a state. -/
def listing (sender : String) (announced : UInt64) (r : Report) : Delivery :=
  ⟨2, .v4 2 7946, ⟨⟨sender⟩, announced, [⟨⟨"x"⟩, .v4 3 7946, .v4 3 7947, r.state, r.incarnation⟩]⟩⟩

theorem acks_commute_announced :
    (∃ s t u, acquainted ⟨"a"⟩ = .ok s ∧
      s.run [(listing "x" 2 ⟨.suspect, 1⟩).occurrence, (listing "b" 1 ⟨.suspect, 1⟩).occurrence] = .ok t ∧
      s.run [(listing "b" 1 ⟨.suspect, 1⟩).occurrence, (listing "x" 2 ⟨.suspect, 1⟩).occurrence] = .ok u ∧
      t.report? ⟨"x"⟩ = u.report? ⟨"x"⟩) ∧
    (∃ s t u, acquainted ⟨"a"⟩ = .ok s ∧
      s.run [(listing "b" 1 ⟨.dead, 2⟩).occurrence, (listing "c" 1 ⟨.alive, 2⟩).occurrence] = .ok t ∧
      s.run [(listing "c" 1 ⟨.alive, 2⟩).occurrence, (listing "b" 1 ⟨.dead, 2⟩).occurrence] = .ok u ∧
      t.report? ⟨"x"⟩ ≠ u.report? ⟨"x"⟩) ∧
    ∃ s t s' t', acquainted ⟨"a"⟩ = .ok s ∧ acquainted ⟨"d"⟩ = .ok t ∧
      s.run [(listing "b" 1 ⟨.suspect, 2⟩).occurrence, (listing "c" 1 ⟨.alive, 2⟩).occurrence] = .ok s' ∧
      t.run [(listing "c" 1 ⟨.alive, 2⟩).occurrence, (listing "b" 1 ⟨.suspect, 2⟩).occurrence] = .ok t' ∧
      s'.report? ⟨"x"⟩ = t'.report? ⟨"x"⟩ := by
  obtain ⟨s, hs⟩ : ∃ s, acquainted ⟨"a"⟩ = .ok s := ⟨_, rfl⟩
  obtain ⟨t, ht⟩ : ∃ t, acquainted ⟨"d"⟩ = .ok t := ⟨_, rfl⟩
  have self : s.self.id = ⟨"a"⟩ := by cases hs; rfl
  have self' : t.self.id = ⟨"d"⟩ := by cases ht; rfl
  have known : s.report? ⟨"x"⟩ = some ⟨.alive, 1⟩ := by cases hs; rfl
  have known' : t.report? ⟨"x"⟩ = some ⟨.alive, 1⟩ := by cases ht; rfl
  have peer : (⟨"x"⟩ : NodeId) ≠ s.self.id := by rw [self]; decide
  refine ⟨?_, ?_, ?_⟩
  · obtain ⟨u, v, hu, hv, _, _, same⟩ := acks_commute.1 s (listing "x" 2 ⟨.suspect, 1⟩).ack (listing "b" 1 ⟨.suspect, 1⟩).ack
      [listing "x" 2 ⟨.suspect, 1⟩, listing "b" 1 ⟨.suspect, 1⟩] [listing "b" 1 ⟨.suspect, 1⟩, listing "x" 2 ⟨.suspect, 1⟩]
      (by rw [self]; decide) (by rw [self]; decide) rfl rfl
    have alike := (same ⟨"x"⟩ _ peer known).2
    rw [self] at alike
    exact ⟨s, u, v, hs, hu, hv, (alike (by decide) (by decide) (by decide) (by decide)).mpr (.inr ⟨2, by decide⟩)⟩
  · obtain ⟨u, v, hu, hv, _, _, same⟩ := acks_commute.1 s (listing "b" 1 ⟨.dead, 2⟩).ack (listing "c" 1 ⟨.alive, 2⟩).ack
      [listing "b" 1 ⟨.dead, 2⟩, listing "c" 1 ⟨.alive, 2⟩] [listing "c" 1 ⟨.alive, 2⟩, listing "b" 1 ⟨.dead, 2⟩]
      (by rw [self]; decide) (by rw [self]; decide) rfl rfl
    refine ⟨s, u, v, hs, hu, hv, fun e => ((same ⟨"x"⟩ _ peer known).1 (by decide) (by decide)).mp e ?_⟩
    exact ⟨2, by simp, by decide, [⟨.dead, 2⟩], by decide, [⟨.alive, 2⟩], by decide, _, _, rfl, rfl, by decide⟩
  · obtain ⟨s', t', hs', ht', same⟩ := acks_commute.2 s t
      [listing "b" 1 ⟨.suspect, 2⟩, listing "c" 1 ⟨.alive, 2⟩] [listing "c" 1 ⟨.alive, 2⟩, listing "b" 1 ⟨.suspect, 2⟩]
      (List.Perm.swap _ _ _)
    refine ⟨s, t, s', t', hs, ht, hs', ht', same ⟨"x"⟩ _ peer (by rw [self']; decide) known known' ?_ ?_⟩
    · simp [listing]
    · exact clear_of_no_deaths (by decide)

/-- Two acks do not commute where one says of a stranger that it is dead and the other that it is alive, nor where one
comes from a stranger that the other makes known. -/
theorem acks_out_of_order :
    (¬ ∀ id gossipAddr rpcAddr now os s, (start id gossipAddr rpcAddr now).run os = .ok s → ∀ a b : Delivery,
      a.ack.sender ≠ s.self.id → b.ack.sender ≠ s.self.id → ∀ t u, s.run [a.occurrence, b.occurrence] = .ok t →
      s.run [b.occurrence, a.occurrence] = .ok u → ∀ n, t.report? n = u.report? n) ∧
    ¬ ∀ id gossipAddr rpcAddr now os s, (start id gossipAddr rpcAddr now).run os = .ok s → ∀ a b : Delivery,
      a.ack.sender ≠ s.self.id → b.ack.sender ≠ s.self.id → ∀ t u, s.run [a.occurrence, b.occurrence] = .ok t →
      s.run [b.occurrence, a.occurrence] = .ok u →
      ∀ n, ¬ Clash (s.report? n) [said n a.ack.members, said n b.ack.members] → t.report? n = u.report? n := by
  constructor
  · intro commute
    have same : some (⟨.dead, 1⟩ : Report) = some ⟨.alive, 1⟩ :=
      commute ⟨"a"⟩ (.v4 1 7946) (.v4 1 7947) 0 [] _ rfl (listing "b" 1 ⟨.dead, 1⟩) (listing "c" 1 ⟨.alive, 1⟩)
        (by decide) (by decide) _ _ rfl rfl ⟨"x"⟩
    exact absurd same (by decide)
  · intro commute
    have same : some (⟨.alive, 1⟩ : Report) = some ⟨.alive, 2⟩ :=
      commute ⟨"a"⟩ (.v4 1 7946) (.v4 1 7947) 0 [] _ rfl ⟨2, .v4 3 7946, ⟨⟨"x"⟩, 2, []⟩⟩ (listing "c" 1 ⟨.alive, 1⟩)
        (by decide) (by decide) _ _ rfl rfl ⟨"x"⟩ (clear_of_no_deaths (by decide))
    exact absurd same (by decide)

end Service

end Workshare.Gossip
