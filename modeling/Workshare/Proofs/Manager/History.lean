import Mathlib.Data.List.Induction
import Workshare.Proofs.Manager.Membership

namespace Workshare

namespace Move

def dismisses (p : NodeId) : Move → Bool
  | .hear (.leave n) => n = p
  | .disband => true
  | _ => false

def admits (p : NodeId) : Move → Bool
  | .hear (.join n) => n = p
  | _ => false

/-- The free workers that a node tells of one of its pools. -/
def frees (p : NodeId) (long : Bool) : Move → Option UInt64
  | .hear (.free n l workers) => if n = p ∧ l = long then some workers else none
  | _ => none

end Move

/-- The moves since a node came that is a member now, `none` if it is no member. A member that joins once more
does not begin anew. -/
def tenureStep (p : NodeId) (t : Option (List Move)) (x : Move) : Option (List Move) :=
  if x.dismisses p then none
  else
    match t with
    | some since => some (since ++ [x])
    | none => if x.admits p then some [] else none

def tenure (p : NodeId) (moves : List Move) : Option (List Move) :=
  moves.foldl (tenureStep p) none

/-- The last count that a node has told of one of its pools, 0 if it has told none. -/
def lastFree (p : NodeId) (long : Bool) (since : List Move) : UInt64 :=
  ((since.filterMap (·.frees p long)).getLast?).getD 0

def freeSince (p : NodeId) (since : List Move) : Free :=
  ⟨lastFree p false since, lastFree p true since⟩

theorem tenure_concat (p : NodeId) (moves : List Move) (x : Move) :
    tenure p (moves ++ [x]) = tenureStep p (tenure p moves) x := by
  simp [tenure]

/-- A tenure begins with a joining that no move since then has ended. -/
theorem tenure_eq_some {p : NodeId} {moves since : List Move} (h : tenure p moves = some since) :
    ∃ before, moves = before ++ .hear (.join p) :: since ∧ tenure p before = none ∧
      ∀ x ∈ since, x.dismisses p = false := by
  induction moves using List.reverseRecOn generalizing since with
  | nil => cases h
  | append_singleton moves x ih =>
    rw [tenure_concat] at h
    unfold tenureStep at h
    split at h
    next => cases h
    next hd =>
      cases ht : tenure p moves with
      | some earlier =>
        rw [ht] at h
        cases h
        obtain ⟨before, hm, hb, hs⟩ := ih ht
        refine ⟨before, by rw [hm]; simp, hb, ?_⟩
        intro y hy
        rcases List.mem_append.mp hy with hy | hy
        · exact hs y hy
        · rw [List.mem_singleton.mp hy]
          exact Bool.eq_false_iff.mpr hd
      | none =>
        rw [ht] at h
        simp only [Option.ite_none_right_eq_some, Option.some.injEq] at h
        obtain ⟨ha, rfl⟩ := h
        have hx : x = .hear (.join p) := by
          unfold Move.admits at ha
          split at ha
          next n => rw [of_decide_eq_true ha]
          next => cases ha
        exact ⟨moves, by rw [hx], ht, by simp⟩

/-- Whoever has joined and was not dismissed since then has a tenure. -/
theorem tenure_isSome_iff {p : NodeId} {moves : List Move} :
    (tenure p moves).isSome ↔
      ∃ before since, moves = before ++ .hear (.join p) :: since ∧ ∀ x ∈ since, x.dismisses p = false := by
  constructor
  · intro h
    obtain ⟨since, hs⟩ := Option.isSome_iff_exists.mp h
    obtain ⟨before, hm, _, hd⟩ := tenure_eq_some hs
    exact ⟨before, since, hm, hd⟩
  · rintro ⟨before, since, rfl, hd⟩
    induction since using List.reverseRecOn with
    | nil =>
      rw [tenure_concat]
      cases tenure p before <;> simp [tenureStep, Move.dismisses, Move.admits]
    | append_singleton since x ih =>
      have kept := ih fun y hy => hd y (List.mem_append_left _ hy)
      have hx : x.dismisses p = false := hd x (by simp)
      obtain ⟨earlier, he⟩ := Option.isSome_iff_exists.mp kept
      rw [show before ++ .hear (.join p) :: (since ++ [x]) = (before ++ .hear (.join p) :: since) ++ [x] by simp,
        tenure_concat, he]
      simp [tenureStep, hx]

theorem lastFree_concat (p : NodeId) (long : Bool) (since : List Move) (x : Move) :
    lastFree p long (since ++ [x]) = (x.frees p long).getD (lastFree p long since) := by
  unfold lastFree
  rw [List.filterMap_append]
  cases h : x.frees p long <;> simp [h]

namespace Manager

/-- What a manager knows of the others is what their tenures tell. -/
def Follows (m : Manager) (moves : List Move) : Prop :=
  ∀ p, p ≠ m.id → m.members.contains p = (tenure p moves).isSome ∧
    m.capacity.get? p = (tenure p moves).map (freeSince p)

end Manager

/-- A move that says nothing about a node lets its tenure go on. -/
theorem tenure_map {p : NodeId} {moves : List Move} {x : Move} (hd : x.dismisses p = false)
    (ha : x.admits p = false) : tenure p (moves ++ [x]) = (tenure p moves).map (· ++ [x]) := by
  rw [tenure_concat]
  cases tenure p moves <;> simp [tenureStep, hd, ha]

theorem freeSince_concat {p : NodeId} {since : List Move} {x : Move} (hf : ∀ long, x.frees p long = none) :
    freeSince p (since ++ [x]) = freeSince p since := by
  simp [freeSince, lastFree_concat, hf]

theorem freeSince_free (p : NodeId) (since : List Move) (long : Bool) (workers : UInt64) :
    freeSince p (since ++ [.hear (.free p long workers)]) = (freeSince p since).setPool long workers := by
  cases long <;> simp [freeSince, lastFree_concat, Move.frees, Free.setPool]

/-- What a node told before it came back, or while it was away, does not count. -/
example :
    (tenure ⟨"b"⟩
      [.hear (.join ⟨"b"⟩), .hear (.free ⟨"b"⟩ false 5), .hear (.leave ⟨"b"⟩), .hear (.free ⟨"b"⟩ false 7),
        .hear (.join ⟨"b"⟩), .hear (.free ⟨"b"⟩ true 3)]).map (freeSince ⟨"b"⟩) = some ⟨0, 3⟩ := by
  decide

namespace Manager

/-- A node about which a move says nothing, and of which it leaves everything as it was. -/
theorem follows_of_silent {m m' : Manager} {moves : List Move} {x : Move} {p : NodeId}
    (h : m.members.contains p = (tenure p moves).isSome ∧ m.capacity.get? p = (tenure p moves).map (freeSince p))
    (hm : m'.members.contains p = m.members.contains p) (hc : m'.capacity.get? p = m.capacity.get? p)
    (hd : x.dismisses p = false) (ha : x.admits p = false) (hf : ∀ long, x.frees p long = none) :
    m'.members.contains p = (tenure p (moves ++ [x])).isSome ∧
      m'.capacity.get? p = (tenure p (moves ++ [x])).map (freeSince p) := by
  rw [tenure_map hd ha, hm, hc, h.1, h.2]
  cases tenure p moves <;> simp [freeSince_concat hf]

theorem Follows.steady {m m' : Manager} {moves : List Move} (h : m.Follows moves) (hs : Steady m m') {x : Move}
    (hd : ∀ p, x.dismisses p = false) (ha : ∀ p, x.admits p = false) (hf : ∀ p long, x.frees p long = none) :
    m'.Follows (moves ++ [x]) := by
  intro p hp
  rw [hs.id] at hp
  exact follows_of_silent (h p hp) (by rw [hs.members]) (hs.free p hp) (hd p) (ha p) (hf p)

theorem Follows.join {m : Manager} {moves : List Move} (h : m.Follows moves) (n : NodeId) :
    (m.join n).Follows (moves ++ [.hear (.join n)]) := by
  intro p hp
  have hid : (m.join n).id = m.id := tell_id _ _
  rw [hid] at hp
  have hm : (m.join n).members.contains p = (decide (p = n) || m.members.contains p) := by
    simp [Manager.join]
  have hc : (m.join n).capacity.get? p = if p = n then some ((m.capacity.get? p).getD .none) else m.capacity.get? p := by
    rw [Manager.join, tell_capacity]
    exact CapacityTable.get?_register _ _ _
  by_cases hn : p = n
  · subst hn
    rw [tenure_concat, hm, hc, (h p hp).2]
    cases tenure p moves with
    | none => simp [tenureStep, Move.dismisses, Move.admits, freeSince, lastFree, Free.none]
    | some since => simp [tenureStep, Move.dismisses, freeSince_concat (x := .hear (.join p)) fun _ => rfl]
  · have hne : n ≠ p := Ne.symm hn
    exact follows_of_silent (h p hp) (by simp [hm, hn]) (by simp [hc, hn]) (by simp [Move.dismisses])
      (by simp [Move.admits, hne]) (by simp [Move.frees])

theorem follows_of_dismissed {m' : Manager} {moves : List Move} {x : Move} {p : NodeId} (hd : x.dismisses p)
    (hm : m'.members.contains p = false) (hc : m'.capacity.get? p = none) :
    m'.members.contains p = (tenure p (moves ++ [x])).isSome ∧
      m'.capacity.get? p = (tenure p (moves ++ [x])).map (freeSince p) := by
  rw [tenure_concat, hm, hc]
  simp [tenureStep, hd]

theorem leave_members (m : Manager) (n p : NodeId) :
    (m.leave n).members.contains p = (m.members.contains p && !(decide (p = n) && decide (n ≠ m.id))) := by
  unfold leave
  split
  next h => simp [h]
  next h => simp [h, Bool.and_comm]

theorem leave_free (m : Manager) (n p : NodeId) :
    (m.leave n).capacity.get? p = if p = n ∧ n ≠ m.id then none else m.capacity.get? p := by
  unfold leave
  split
  next h => simp [h]
  next h => simp [h, CapacityTable.get?_remove]

theorem Follows.leave {m : Manager} {moves : List Move} (h : m.Follows moves) (n : NodeId) :
    (m.leave n).Follows (moves ++ [.hear (.leave n)]) := by
  intro p hp
  rw [leave_id] at hp
  by_cases hn : p = n
  · subst hn
    exact follows_of_dismissed (by simp [Move.dismisses]) (by simp [leave_members, hp]) (by simp [leave_free, hp])
  · have hne : n ≠ p := Ne.symm hn
    exact follows_of_silent (h p hp) (by simp [leave_members, hn]) (by simp [leave_free, hn])
      (by simp [Move.dismisses, hne]) (by simp [Move.admits]) (by simp [Move.frees])

theorem Follows.updateFree {m : Manager} {moves : List Move} (h : m.Follows moves) (n : NodeId) (long : Bool)
    (workers : UInt64) : (m.updateFree n long workers).Follows (moves ++ [.hear (.free n long workers)]) := by
  intro p hp
  rw [updateFree_id] at hp
  have hc : (m.updateFree n long workers).capacity.get? p =
      if p = n ∧ m.members.contains n then some (((m.capacity.get? n).getD .none).setPool long workers)
      else m.capacity.get? p := by
    unfold Manager.updateFree
    split
    next hn => rw [tell_capacity, CapacityTable.get?_updatePool]; simp [hn]
    next hn => simp [hn]
  by_cases hn : p = n
  · subst hn
    rw [tenure_map (by simp [Move.dismisses]) (by simp [Move.admits]), updateFree_members, hc, (h p hp).1,
      (h p hp).2]
    cases tenure p moves with
    | none => simp
    | some since => simp [freeSince_free]
  · have hne : n ≠ p := Ne.symm hn
    exact follows_of_silent (h p hp) (by rw [updateFree_members]) (by simp [hc, hn]) (by simp [Move.dismisses])
      (by simp [Move.admits]) (by simp [Move.frees, hne])

theorem leaveAll_members (peers : List NodeId) (m : Manager) (p : NodeId) :
    (peers.foldl Manager.leave m).members.contains p = (m.members.contains p && !(decide (p ∈ peers) && decide (p ≠ m.id))) := by
  induction peers generalizing m with
  | nil => simp
  | cons n peers ih =>
    rw [List.foldl_cons, ih, leave_members, leave_id]
    by_cases hp : p = n
    · subst hp
      by_cases hi : p = m.id <;> simp [hi]
    · simp [hp]

theorem disband_members {m : Manager} (h : Sound m) (p : NodeId) :
    m.disband.members.contains p = decide (p = m.id) := by
  rw [disband, leaveAll_members]
  by_cases hp : p = m.id
  · simp [hp, h.member]
  · simp [hp, Roster.mem_peers]

theorem Follows.disband {m : Manager} {moves : List Move} (hs : Sound m) :
    m.disband.Follows (moves ++ [.disband]) := by
  intro p hp
  rw [disband_id] at hp
  have gone : m.disband.members.contains p = false := by simp [disband_members hs, hp]
  refine follows_of_dismissed rfl gone ?_
  have entered := hs.disband.entered p
  rw [gone, contains_capacity] at entered
  simpa using entered

theorem Follows.move {m : Manager} {moves : List Move} (hs : Sound m) (h : m.Follows moves) (x : Move) :
    (m.move x).Follows (moves ++ [x]) := by
  cases x with
  | hear notice =>
    cases notice with
    | join n => exact h.join n
    | leave n => exact h.leave n
    | free n long workers => exact h.updateFree n long workers
    | delta origin c => exact h.steady (Steady.delta m origin c) (fun _ => rfl) (fun _ => rfl) fun _ _ => rfl
  | disband => exact Follows.disband hs
  | _ => exact h.steady (Steady.move m rfl) (fun _ => rfl) (fun _ => rfl) fun _ _ => rfl

theorem Follows.start (id : NodeId) (settings : ManagerSettings) (free : Free) :
    (start id settings free).Follows [] := by
  intro p hp
  have hp : p ≠ id := hp
  simp [Manager.start, tenure, hp, CapacityTable.get?_update]

theorem Follows.run {m : Manager} {moves : List Move} (hs : Sound m) (h : m.Follows moves) (more : List Move) :
    (m.run more).Follows (moves ++ more) := by
  induction more generalizing m moves with
  | nil => simpa using h
  | cons x more ih =>
    have next := ih (hs.move x) (h.move hs x)
    rwa [List.append_assoc, List.singleton_append] at next

/-- Only the own id is left in a roster that contains nothing else. -/
theorem members_of_alone {m : Manager} (h : ∀ p, m.members.contains p = decide (p = m.id)) :
    m.members.members = [m.id] :=
  Table.keys_eq_of_contains_eq (t := Table.empty.insert m.id ()) fun p => by
    rw [Table.contains_insert, Table.contains_empty, Bool.or_false]
    exact h p

/-- The statistics of a manager that knows itself alone list itself alone. -/
theorem Sound.listed_alone {m : Manager} (hs : Sound m) (h : ∀ p, m.members.contains p = decide (p = m.id)) :
    m.statistics.nodes = [m.id] := by
  refine Table.keys_eq_of_contains_eq (t := Table.empty.insert m.id ()) fun p => ?_
  rw [Statistics.tallies, Table.contains_insert, Table.contains_insert, Table.contains_empty, hs.self]
  have none : m.statistics.peers.contains p = false := by
    refine Bool.eq_false_iff.mpr fun hp => ?_
    obtain ⟨hm, hne⟩ := hs.counted p hp
    rw [h p] at hm
    exact hne (of_decide_eq_true hm)
  rw [none]

/-- The group as a manager knows it after any moves whatsoever: the capacity table lists the members, oneself among
them; the statistics list no others; a peer is a member once it has joined, until it is dismissed, with the free workers
that it has told of in this tenure; and whoever stops is alone. -/
theorem run_follows_history (id : NodeId) (settings : ManagerSettings) (free : Free) (moves : List Move) :
    let m := (start id settings free).run moves
    let stopped := m.run [.disconnect, .disband]
    m.capacity.nodes = m.members.members ∧ id ∈ m.members.members ∧
      (∀ n ∈ m.statistics.nodes, n ∈ m.members.members) ∧
      (∀ p, p ≠ id → (p ∈ m.members.members ↔ (tenure p moves).isSome) ∧
        (p ∈ m.members.members ↔
          ∃ before since, moves = before ++ .hear (.join p) :: since ∧ ∀ x ∈ since, x.dismisses p = false) ∧
        m.capacity.get? p = (tenure p moves).map (freeSince p)) ∧
      stopped.members.members = [id] ∧ stopped.capacity.nodes = [id] ∧ stopped.statistics.nodes = [id] := by
  intro m stopped
  have hid : m.id = id := run_id _ _
  have sound : Sound m := (Sound.start id settings free).run moves
  have follows : m.Follows moves := by
    simpa using (Follows.start id settings free).run (Sound.start id settings free) moves
  have stoppedSound : Sound stopped := sound.run _
  have stoppedId : stopped.id = id := (run_id m _).trans hid
  -- whoever was there before, the second half of a stop leaves only the node itself
  have alone : ∀ p, stopped.members.contains p = decide (p = stopped.id) := by
    intro p
    have disconnected : Sound m.disconnect := sound.run [.disconnect]
    have hd : m.disconnect.id = stopped.id := (run_id m [.disconnect]).trans (hid.trans stoppedId.symm)
    rw [← hd]
    exact disband_members disconnected p
  refine ⟨sound.nodes_eq, hid ▸ sound.self_mem, fun n hn => sound.listed_mem hn, ?_, ?_, ?_, ?_⟩
  · intro p hp
    obtain ⟨hm, hc⟩ := follows p (hid.symm ▸ hp)
    have there : p ∈ m.members.members ↔ (tenure p moves).isSome := by rw [Roster.mem_members, hm]
    exact ⟨there, there.trans tenure_isSome_iff, hc⟩
  · rw [members_of_alone alone, stoppedId]
  · rw [stoppedSound.nodes_eq, members_of_alone alone, stoppedId]
  · rw [stoppedSound.listed_alone alone, stoppedId]

end Manager

end Workshare
