import Mathlib.Algebra.Ring.Nat
import Workshare.Http.Interface
import Workshare.Proofs.Manager.Balance
import Workshare.Proofs.Manager.History

namespace Workshare

namespace Tally

def ofSteps (steps : List Counter) : Tally Nat :=
  ofFn fun c => steps.count c

@[simp] theorem get_ofSteps (steps : List Counter) (c : Counter) : (ofSteps steps).get c = steps.count c :=
  get_ofFn _ c

theorem ofSteps_concat (steps : List Counter) (c : Counter) : ofSteps (steps ++ [c]) = (ofSteps steps).bump c := by
  refine ext_get fun d => ?_
  rw [get_bump, get_ofSteps, get_ofSteps, List.count_append, List.count_singleton]
  by_cases hd : d = c
  · simp [hd]
  · simp [hd, Ne.symm hd]

end Tally

/-- The step of its tally that a node tells of. -/
def Move.tells (p : NodeId) : Move → Option Counter
  | .hear (.delta origin c) => if origin = p then some c else none
  | _ => none

def credits (p : NodeId) (moves : List Move) : List Counter :=
  ((tenure p moves).getD []).filterMap (·.tells p)

theorem credits_of_dismissed {p : NodeId} {x : Move} (moves : List Move) (hd : x.dismisses p) :
    credits p (moves ++ [x]) = [] := by
  unfold credits
  rw [tenure_concat]
  unfold tenureStep
  rw [if_pos hd]
  rfl

theorem credits_of_silent {p : NodeId} {x : Move} (moves : List Move) (hd : x.dismisses p = false)
    (ht : x.tells p = none) : credits p (moves ++ [x]) = credits p moves := by
  unfold credits
  rw [tenure_concat]
  cases tenure p moves with
  | none => cases ha : x.admits p <;> simp [tenureStep, hd, ha]
  | some since => simp [tenureStep, hd, ht]

theorem credits_delta {p : NodeId} (moves : List Move) (c : Counter) :
    credits p (moves ++ [.hear (.delta p c)]) =
      credits p moves ++ if (tenure p moves).isSome then [c] else [] := by
  unfold credits
  rw [tenure_map rfl rfl]
  cases tenure p moves with
  | none => rfl
  | some since => simp [Move.tells]

namespace Statistics

theorem aggregate_get (s : Statistics) (c : Counter) :
    s.aggregate.get c = s.own.get c + (s.peers.entries.map fun e => e.2.get c).sum := by
  unfold aggregate
  generalize s.own = own
  induction s.peers.entries generalizing own with
  | nil => simp
  | cons e entries ih => rw [List.foldl_cons, ih, Tally.get_add, List.map_cons, List.sum_cons, Nat.add_assoc]

theorem get?_eq (s : Statistics) (n : NodeId) : s.get? n = s.tallies.get? n :=
  (Table.get?_insert _ _ _ _).symm

/-- The own tally is counted among the listed ones. -/
theorem aggregate_entries {s : Statistics} (own : s.peers.get? s.node = none) (c : Counter) :
    s.aggregate.get c = (s.tallies.entries.map fun e => e.2.get c).sum := by
  rw [aggregate_get]
  exact ((Table.place_perm s.own own).map fun e => e.2.get c).sum_nat.symm

theorem aggregate_nodes {s : Statistics} (own : s.peers.get? s.node = none) (c : Counter) :
    s.aggregate.get c = (s.nodes.map fun n => ((s.get? n).getD .zero).get c).sum := by
  rw [aggregate_entries own, nodes, Table.keys, List.map_map]
  refine congrArg List.sum (List.map_congr_left fun e he => ?_)
  rw [Function.comp_apply, get?_eq, Table.get?_eq_some_iff.mpr he]
  rfl

theorem le_aggregate {s : Statistics} (own : s.peers.get? s.node = none) {n : NodeId} {t : Tally Nat}
    (h : s.get? n = some t) (c : Counter) : t.get c ≤ s.aggregate.get c := by
  rw [get?_eq, Table.get?_eq_some_iff] at h
  obtain ⟨before, after, split⟩ := List.append_of_mem h
  rw [aggregate_entries own, split, List.map_append, List.map_cons, List.sum_append, List.sum_cons]
  exact Nat.le_trans (Nat.le_add_right _ _) (Nat.le_add_left _ _)

end Statistics

namespace Http

theorem toNat_tally {t : Tally Nat} {c : Counter} (fits : t.get c < UInt64.size) :
    ((tally t).get c).toNat = t.get c := by
  rw [tally, Tally.map, Tally.get_ofFn]
  exact Nat.mod_eq_of_lt fits

theorem statistics_nodes (m : Manager) : (statistics m).nodes.map (·.node) = m.statistics.nodes :=
  List.map_map

/-- Whatever fits into the aggregate is served as it is, for each node. -/
theorem statistics_counters {m : Manager} (own : m.statistics.peers.get? m.statistics.node = none) {c : Counter}
    (fits : m.statistics.aggregate.get c < UInt64.size) {e : NodeStatistics} (he : e ∈ (statistics m).nodes) :
    ∃ t, m.statistics.get? e.node = some t ∧ (e.counters.get c).toNat = t.get c := by
  obtain ⟨entry, hm, rfl⟩ := List.mem_map.mp he
  have known : m.statistics.get? entry.1 = some entry.2 := by
    rw [Statistics.get?_eq]
    exact Table.get?_eq_some_iff.mpr hm
  exact ⟨entry.2, known, toNat_tally (Nat.lt_of_le_of_lt (Statistics.le_aggregate own known c) fits)⟩

theorem statistics_sum {m : Manager} (own : m.statistics.peers.get? m.statistics.node = none) {c : Counter}
    (fits : m.statistics.aggregate.get c < UInt64.size) :
    ((statistics m).nodes.map fun e => (e.counters.get c).toNat).sum = m.statistics.aggregate.get c := by
  rw [Statistics.aggregate_nodes own, ← statistics_nodes, List.map_map]
  refine congrArg List.sum (List.map_congr_left fun e he => ?_)
  obtain ⟨t, known, value⟩ := statistics_counters own fits he
  rw [Function.comp_apply, known, value]
  rfl

end Http

namespace Manager

/-- What the statistics have about the peers is what counts for them. -/
def Credits (m : Manager) (moves : List Move) : Prop :=
  ∀ p, p ≠ m.id →
    m.statistics.peers.get? p = if credits p moves = [] then none else some (.ofSteps (credits p moves))

namespace Credits

variable {m : Manager} {moves : List Move}

theorem recalls {m' : Manager} (h : m.Credits moves) (id : m'.id = m.id) (hr : Recalls m m') {x : Move}
    (hd : ∀ p, x.dismisses p = false) (ht : ∀ p, x.tells p = none) : m'.Credits (moves ++ [x]) := by
  intro p hp
  rw [credits_of_silent moves (hd p) (ht p), hr]
  exact h p (id ▸ hp)

theorem leave (h : m.Credits moves) (hs : Sound m) (n : NodeId) :
    (m.leave n).Credits (moves ++ [.hear (.leave n)]) := by
  intro p hp
  rw [leave_id] at hp
  by_cases hn : p = n
  · rw [credits_of_dismissed moves (by simp [Move.dismisses, hn]), statistics_leave hs (hn ▸ hp), Statistics.get?_forget,
      if_pos hn]
    rfl
  · have kept : (m.leave n).statistics.peers.get? p = m.statistics.peers.get? p := by
      by_cases own : n = m.id
      · rw [Manager.leave, if_pos own]
      · rw [statistics_leave hs own, Statistics.get?_forget, if_neg hn]
    rw [credits_of_silent moves (by simp [Move.dismisses, Ne.symm hn]) rfl, kept]
    exact h p hp

theorem delta (h : m.Credits moves) (hs : Sound m) (hf : m.Follows moves) (origin : NodeId) (c : Counter) :
    (m.delta origin c).Credits (moves ++ [.hear (.delta origin c)]) := by
  intro p hp
  rw [Steady.delta m origin c |>.id] at hp
  by_cases ho : origin = p
  · subst ho
    rw [credits_delta, ← (hf origin hp).1]
    by_cases member : m.members.contains origin
    · have before : (m.statistics.peers.get? origin).getD .zero = .ofSteps (credits origin moves) := by
        rw [h origin hp]
        split
        next none => rw [none]; rfl
        next => rfl
      rw [delta_peers hs member, if_pos ⟨rfl, hp⟩, before, if_pos member, if_neg (by simp), Tally.ofSteps_concat]
    · rw [Manager.delta, if_neg member, if_neg member, List.append_nil]
      exact h origin hp
  · have silent : (Move.hear (.delta origin c)).tells p = none := if_neg ho
    rw [credits_of_silent moves rfl silent]
    by_cases member : m.members.contains origin
    · rw [delta_peers hs member, if_neg fun e => ho e.1.symm]
      exact h p hp
    · rw [Manager.delta, if_neg member]
      exact h p hp

theorem disband (hs : Sound m) : m.disband.Credits (moves ++ [.disband]) := by
  intro p hp
  rw [credits_of_dismissed moves rfl, if_pos rfl, Table.get?_eq_none_iff]
  refine Bool.eq_false_iff.mpr fun listed => hp ?_
  have member := (hs.disband.counted p listed).1
  rw [disband_members hs, decide_eq_true_eq] at member
  rw [disband_id, member]

theorem move (h : m.Credits moves) (hs : Sound m) (hf : m.Follows moves) (x : Move) :
    (m.move x).Credits (moves ++ [x]) := by
  cases x with
  | hear notice =>
    cases notice with
    | leave n => exact h.leave hs n
    | delta origin c => exact h.delta hs hf origin c
    | _ => exact h.recalls (move_id m _) (Recalls.move m rfl) (fun _ => rfl) fun _ => rfl
  | disband => exact disband hs
  | _ => exact h.recalls (move_id m _) (Recalls.move m rfl) (fun _ => rfl) fun _ => rfl

theorem run (h : m.Credits moves) (hs : Sound m) (hf : m.Follows moves) (more : List Move) :
    (m.run more).Credits (moves ++ more) := by
  induction more generalizing m moves with
  | nil => simpa using h
  | cons x more ih =>
    have next := ih (h.move hs hf x) (hs.move x) (hf.move hs x)
    rwa [List.append_assoc, List.singleton_append] at next

theorem start (id : NodeId) (settings : ManagerSettings) (free : Free) : (start id settings free).Credits [] :=
  fun _ _ => rfl

end Credits

/-- The own tally counts every step that the node has recorded, wherever it is told. -/
theorem own_run (m : Manager) (counted : List Counter) (h : m.statistics.own = .ofSteps counted) (moves : List Move) :
    (m.run moves).statistics.own = .ofSteps (counted ++ moves.filterMap Move.records) := by
  induction moves generalizing m counted with
  | nil => rw [List.filterMap_nil, List.append_nil]; exact h
  | cons x moves ih =>
    have next := own_move m x
    rw [h] at next
    cases hc : x.records with
    | none =>
      rw [hc] at next
      rw [List.filterMap_cons_none hc]
      exact ih (m.move x) _ next
    | some c =>
      rw [hc, Option.elim_some, ← Tally.ofSteps_concat] at next
      rw [List.filterMap_cons_some hc, List.append_cons]
      exact ih (m.move x) _ next

/-- The own delta, should it come back, is told to the listeners from outside and changes nothing. -/
theorem delta_self {m : Manager} (hs : Sound m) (c : Counter) :
    ∃ told, m.delta m.id c = { m with outbox := m.outbox ++ told } ∧
      ∀ e ∈ told, ∃ tag, e = .notify tag (.delta m.id c) := by
  have unmoved : m.listeners.map (·.hear (.delta m.id c)) = m.listeners := by
    refine (List.map_congr_left fun l _ => ?_).trans (List.map_id _)
    cases l <;> rfl
  have uncounted : m.listeners.foldl (fun s l => l.teach (.delta m.id c) s) m.statistics = m.statistics := by
    rw [foldl_teach hs.heard, Statistics.hear, Statistics.addDelta, if_pos hs.self.symm]
  refine ⟨m.listeners.filterMap (·.notification? (.delta m.id c)), ?_, fun e he => ?_⟩
  · rw [delta, if_pos hs.member, tell_eq, unmoved, uncounted]
  · obtain ⟨l, _, told⟩ := List.mem_filterMap.mp he
    obtain ⟨tag, _, rfl⟩ := Option.map_eq_some_iff.mp told
    exact ⟨tag, rfl⟩

/-- The statistics account for the history. The nodes are in order, and the own one is listed once. The own tally
counts what the node has recorded, and a peer is listed with what counts for it if there is any; a delta of the
own node does not. The aggregate is the sum over all nodes listed, and while it fits into 64 bits so it is served.
-/
theorem run_accounts (id : NodeId) (settings : ManagerSettings) (free : Free) (moves : List Move) :
    let m := (start id settings free).run moves
    let s := m.statistics
    s.nodes.Pairwise (· < ·) ∧ s.nodes.count id = 1 ∧
    s.get? id = some (.ofSteps (moves.filterMap Move.records)) ∧
    (∀ p, p ≠ id →
      (p ∈ s.nodes ↔ credits p moves ≠ []) ∧
      s.get? p = if credits p moves = [] then none else some (.ofSteps (credits p moves))) ∧
    (∀ c, ∃ told, m.move (.hear (.delta id c)) = { m with outbox := m.outbox ++ told } ∧
      ∀ e ∈ told, ∃ tag, e = .notify tag (.delta id c)) ∧
    (∀ c, s.aggregate.get c = (s.nodes.map fun n => ((s.get? n).getD .zero).get c).sum) ∧
    ∃ body, Http.tables m .statistics = ⟨200, some (Http.StatisticsBody.form.toValue body)⟩ ∧
      body.nodes.map (·.node) = s.nodes ∧
      ∀ c, s.aggregate.get c < UInt64.size →
        (∀ e ∈ body.nodes, ∃ t, s.get? e.node = some t ∧ (e.counters.get c).toNat = t.get c) ∧
        (body.aggregate.get c).toNat = s.aggregate.get c ∧
        (body.nodes.map fun e => (e.counters.get c).toNat).sum = s.aggregate.get c := by
  intro m s
  have started := Sound.start id settings free
  have sound : Sound m := started.run moves
  have self : m.id = id := run_id _ moves
  have node : s.node = id := sound.self.trans self
  have credited : m.Credits moves := (Credits.start id settings free).run started (.start id settings free) moves
  have counted : s.own = .ofSteps (moves.filterMap Move.records) := own_run _ [] rfl moves
  -- the own tally is kept apart, so that the sum does not count it a second time
  have alone : s.peers.get? s.node = none := by
    refine Table.get?_eq_none_iff.mpr (Bool.eq_false_iff.mpr fun listed => ?_)
    exact (sound.counted _ listed).2 sound.self
  have own : s.get? id = some (.ofSteps (moves.filterMap Move.records)) := by
    rw [Statistics.get?, if_pos node.symm, counted]
  have peer (p : NodeId) (hp : p ≠ id) :
      s.get? p = if credits p moves = [] then none else some (.ofSteps (credits p moves)) := by
    rw [Statistics.get?, if_neg (node.symm ▸ hp)]
    exact credited p (self.symm ▸ hp)
  have listed (p : NodeId) : p ∈ s.nodes ↔ (s.get? p).isSome := by
    rw [Statistics.get?_eq]
    exact Table.mem_keys_iff
  have once : s.nodes.Nodup := Table.nodup_keys s.tallies
  refine ⟨Table.keys_sorted _, ?_, own, fun p hp => ⟨?_, peer p hp⟩, fun c => ?_, Statistics.aggregate_nodes alone,
    Http.statistics m, rfl, Http.statistics_nodes m, fun c fits => ⟨fun e he => ?_, ?_, ?_⟩⟩
  · rw [once.count, if_pos ((listed id).mpr (own ▸ rfl))]
  · rw [listed, peer p hp]
    split
    next none => simp [none]
    next some => simp [some]
  · exact self ▸ delta_self sound c
  · exact Http.statistics_counters alone fits he
  · exact Http.toNat_tally fits
  · exact Http.statistics_sum alone fits

/-- A peer counts, leaves with what it has counted, says one thing too late, and comes back. -/
def comeback : List Move :=
  [.count .doWorkAccepted, .replicate false, .count .workFailed, .hear (.join ⟨"b"⟩),
    .hear (.delta ⟨"b"⟩ .workSuccessful), .hear (.leave ⟨"b"⟩), .hear (.delta ⟨"b"⟩ .workFailed),
    .hear (.join ⟨"b"⟩), .hear (.delta ⟨"b"⟩ .workFailed), .hear (.join ⟨"b"⟩), .hear (.delta ⟨"a"⟩ .workFailed)]

theorem run_accounts_comeback :
    let s := ((start ⟨"a"⟩ .default ⟨2, 1⟩).run comeback).statistics
    s.get? ⟨"a"⟩ = some (.ofSteps [.doWorkAccepted, .workFailed]) ∧
      s.get? ⟨"b"⟩ = some (.ofSteps [.workFailed]) ∧ ⟨"b"⟩ ∈ s.nodes ∧ ⟨"c"⟩ ∉ s.nodes ∧
      s.aggregate.get .workFailed = 2 := by
  intro s
  obtain ⟨_, _, own, peers, _, _, _⟩ := run_accounts ⟨"a"⟩ .default ⟨2, 1⟩ comeback
  obtain ⟨listed, told⟩ := peers ⟨"b"⟩ (by decide)
  obtain ⟨unlisted, _⟩ := peers ⟨"c"⟩ (by decide)
  exact ⟨own, told, listed.mpr (by decide), fun h => unlisted.mp h (by decide), by decide⟩

end Manager

end Workshare
