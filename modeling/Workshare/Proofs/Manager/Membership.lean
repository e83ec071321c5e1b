import Workshare.Proofs.Manager.Moves

namespace Workshare

/-- A small change by which nobody becomes a member or is dismissed, and nobody else's workers are entered. -/
def Change.isHome : Change → Bool
  | .hear (.delta _ _) => true
  | .hear _ => false
  | _ => true

/-- A move of the node itself, or a delta. -/
def Move.isHome : Move → Bool
  | .hear (.delta _ _) => true
  | .hear _ => false
  | .disband => false
  | _ => true

theorem Move.Makes.isHome {x : Move} {c : Change} (h : x.Makes c) (hx : x.isHome) : c.isHome := by
  cases h with
  | @hear notice => cases notice <;> first | rfl | cases hx
  | leave => cases hx
  | _ => rfl

namespace Manager

/-- Who is in the group stands in three places, which fit together: the roster, the capacity table and the
statistics. -/
structure Sound (m : Manager) : Prop where
  heard : m.listeners.count .statistics = 1
  self : m.statistics.node = m.id
  member : m.members.contains m.id
  entered : ∀ n, m.capacity.table.contains n = m.members.contains n
  counted : ∀ n, m.statistics.peers.contains n → m.members.contains n ∧ n ≠ m.id

/-- The own node is never without an entry. -/
theorem Sound.own_entry {m : Manager} (h : Sound m) : ∃ free, m.capacity.get? m.id = some free := by
  have entered := h.entered m.id
  rw [h.member] at entered
  exact Option.isSome_iff_exists.mp entered

/-- What of the others a manager still knows. -/
structure Steady (m m' : Manager) : Prop where
  id : m'.id = m.id
  members : m'.members = m.members
  free : ∀ p, p ≠ m.id → m'.capacity.get? p = m.capacity.get? p

theorem contains_capacity {t : CapacityTable} {n : NodeId} : t.table.contains n = (t.get? n).isSome := rfl

theorem contains_register (t : CapacityTable) (n p : NodeId) :
    (t.register n).table.contains p = (decide (p = n) || t.table.contains p) := by
  rw [contains_capacity, CapacityTable.get?_register]
  split
  next h => simp [h]
  next h => simp [h, contains_capacity]

theorem contains_updatePool (t : CapacityTable) (n p : NodeId) (long : Bool) (free : UInt64) :
    (t.updatePool n long free).table.contains p = (decide (p = n) || t.table.contains p) :=
  Table.contains_insert _ _ _ _

theorem count_hear (ls : List Listener) (notice : Notice) :
    (ls.map (·.hear notice)).count .statistics = ls.count .statistics := by
  rw [List.count_eq_countP, List.count_eq_countP, List.countP_map]
  refine List.countP_congr fun l _ => ?_
  simp [Listener.hear_eq_statistics]

/-- With the statistics among the listeners, telling is hearing, for each of them. -/
theorem tell_statistics {m : Manager} (h : m.listeners.count .statistics = 1) (notice : Notice) :
    (m.tell notice).statistics = m.statistics.hear notice := by
  rw [tell_eq]
  exact foldl_teach h notice m.statistics

@[simp] theorem tell_members (m : Manager) (notice : Notice) : (m.tell notice).members = m.members := by
  rw [tell_eq]

@[simp] theorem tell_capacity (m : Manager) (notice : Notice) : (m.tell notice).capacity = m.capacity := by
  rw [tell_eq]

@[simp] theorem updateFree_members (m : Manager) (n : NodeId) (long : Bool) (free : UInt64) :
    (m.updateFree n long free).members = m.members := by
  unfold updateFree
  split
  next => exact tell_members _ _
  next => rfl

theorem tell_listeners (m : Manager) (notice : Notice) :
    (m.tell notice).listeners = m.listeners.map (·.hear notice) := by
  rw [tell_eq]

/-- A notice may be told once roster and capacity table fit and what the statistics make of it fits too. -/
theorem sound_tell {m : Manager} {notice : Notice} (heard : m.listeners.count .statistics = 1)
    (self : m.statistics.node = m.id) (member : m.members.contains m.id)
    (entered : ∀ n, m.capacity.table.contains n = m.members.contains n)
    (counted : ∀ n, (m.statistics.hear notice).peers.contains n → m.members.contains n ∧ n ≠ m.id) :
    Sound (m.tell notice) := by
  refine ⟨?_, ?_, ?_, ?_, ?_⟩
  · rw [tell_listeners, count_hear]
    exact heard
  · rw [tell_statistics heard, Statistics.hear_eq, tell_id]
    exact self
  · rw [tell_members, tell_id]
    exact member
  · intro n
    rw [tell_members, tell_capacity]
    exact entered n
  · intro n hn
    rw [tell_statistics heard] at hn
    rw [tell_members, tell_id]
    exact counted n hn

namespace Sound

/-- Fields that say nothing about the group may change. -/
theorem of_eq {m m' : Manager} (h : Sound m) (hid : m'.id = m.id) (hl : m'.listeners = m.listeners)
    (hm : m'.members = m.members) (hc : m'.capacity = m.capacity)
    (hn : m'.statistics.node = m.statistics.node) (hp : m'.statistics.peers = m.statistics.peers) : Sound m' := by
  refine ⟨?_, ?_, ?_, ?_, ?_⟩
  · rw [hl]; exact h.heard
  · rw [hn, hid]; exact h.self
  · rw [hm, hid]; exact h.member
  · rw [hc, hm]; exact h.entered
  · rw [hp, hm, hid]; exact h.counted

theorem record {m : Manager} (h : Sound m) (c : Counter) : Sound (m.record c) := by
  rw [record_eq]
  exact h.of_eq rfl rfl rfl rfl rfl rfl

theorem join {m : Manager} (h : Sound m) (n : NodeId) : Sound (m.join n) := by
  refine sound_tell h.heard h.self ?_ ?_ ?_
  · simp [h.member]
  · intro p
    simp [contains_register, h.entered p]
  · intro p hp
    obtain ⟨hm, hne⟩ := h.counted p hp
    exact ⟨by simp [hm], hne⟩

theorem leave {m : Manager} (h : Sound m) (n : NodeId) : Sound (m.leave n) := by
  unfold Manager.leave
  split
  next => exact h
  next hn =>
    refine sound_tell h.heard h.self ?_ ?_ ?_
    · simp [h.member, Ne.symm hn]
    · intro p
      simp [CapacityTable.remove, h.entered p]
    · intro p hp
      have hp : (m.statistics.peers.erase n).contains p := hp
      simp only [Table.contains_erase, Bool.and_eq_true] at hp
      obtain ⟨hm, hne⟩ := h.counted p hp.2
      exact ⟨by simp [hm, hp.1], hne⟩

theorem updateFree {m : Manager} (h : Sound m) (n : NodeId) (long : Bool) (free : UInt64) :
    Sound (m.updateFree n long free) := by
  unfold Manager.updateFree
  split
  next hn =>
    refine sound_tell h.heard h.self h.member ?_ h.counted
    intro p
    rw [contains_updatePool, h.entered p]
    by_cases hp : p = n
    · simp [hp, hn]
    · simp [hp]
  next => exact h

theorem delta {m : Manager} (h : Sound m) (origin : NodeId) (c : Counter) : Sound (m.delta origin c) := by
  unfold Manager.delta
  split
  next ho =>
    refine sound_tell h.heard h.self h.member h.entered ?_
    intro p hp
    have hp : ((m.statistics.addDelta origin c).peers.get? p).isSome := hp
    rw [Statistics.get?_addDelta] at hp
    split at hp
    next he => exact ⟨he.1 ▸ ho, he.1 ▸ h.self ▸ he.2⟩
    next => exact h.counted p hp
  next => exact h

theorem hear {m : Manager} (h : Sound m) (notice : Notice) : Sound (m.hear notice) := by
  cases notice with
  | join n => exact h.join n
  | leave n => exact h.leave n
  | free n long count => exact h.updateFree n long count
  | delta origin c => exact h.delta origin c

/-- A listener without a tag is the statistics, which are there already. -/
theorem addListener {m : Manager} (h : Sound m) (l : Listener) : Sound (m.addListener l) := by
  rw [addListener_eq]
  split
  next => exact h
  next hl =>
    have hne : l ≠ .statistics := by
      rintro rfl
      have hmem : Listener.statistics ∈ m.listeners := List.count_pos_iff.mp (by rw [h.heard]; exact Nat.one_pos)
      exact hl (List.any_eq_true.mpr ⟨_, hmem, by simp⟩)
    have silent : ∀ (notices : List Notice) (s : Statistics), notices.foldl (fun s n => l.teach n s) s = s := by
      intro notices
      induction notices with
      | nil => intro s; rfl
      | cons n notices ih => intro s; rw [List.foldl_cons, Listener.teach_of_ne hne, ih]
    have still : ∀ (notices : List Notice) (l : Listener), l ≠ .statistics →
        notices.foldl Listener.hear l ≠ .statistics := by
      intro notices
      induction notices with
      | nil => intro l hl; exact hl
      | cons n notices ih => intro l hl; exact ih _ fun e => hl (Listener.hear_eq_statistics.mp e)
    have heard : (m.listeners ++ [(replay m.capacity.entries).foldl Listener.hear l]).count .statistics = 1 := by
      rw [List.count_append, h.heard, List.count_singleton, if_neg (by simpa using still _ l hne)]
    refine ⟨heard, ?_, h.member, h.entered, ?_⟩
    · dsimp only
      rw [silent]
      exact h.self
    · dsimp only
      rw [silent]
      exact h.counted

theorem persists : Persists (fun _ => True) fun m m' => Sound m → Sound m' where
  refl _ h := h
  trans h h' hs := h' (h hs)
  change m x _ h := by
    cases x with
    | record c => exact h.record c
    | publish long free => exact h.updateFree m.id long free
    | hear notice => exact h.hear notice
    | listener l => exact h.addListener l
    | _ => exact h.of_eq rfl rfl rfl rfl rfl rfl

theorem move {m : Manager} (h : Sound m) (x : Move) : Sound (m.move x) :=
  persists.move m (fun _ => trivial) h

theorem disband {m : Manager} (h : Sound m) : Sound m.disband :=
  h.move .disband

theorem run {m : Manager} (h : Sound m) (moves : List Move) : Sound (m.run moves) := by
  induction moves generalizing m with
  | nil => exact h
  | cons x moves ih => exact ih (h.move x)

theorem start (id : NodeId) (settings : ManagerSettings) (free : Free) : Sound (start id settings free) where
  heard := rfl
  self := rfl
  member := by simp [Manager.start]
  entered n := by simp [Manager.start, CapacityTable.update, CapacityTable.empty]
  counted n h := by cases h

theorem nodes_eq {m : Manager} (h : Sound m) : m.capacity.nodes = m.members.members :=
  Table.keys_eq_of_contains_eq h.entered

theorem self_mem {m : Manager} (h : Sound m) : m.id ∈ m.members.members :=
  Roster.mem_members.mpr h.member

theorem listed_mem {m : Manager} (h : Sound m) {n : NodeId} (hn : n ∈ m.statistics.nodes) :
    n ∈ m.members.members := by
  have hn := Table.mem_keys_iff.mp hn
  simp only [Statistics.tallies, Table.contains_insert, Bool.or_eq_true, decide_eq_true_eq] at hn
  rcases hn with rfl | hn
  · rw [h.self]
    exact h.self_mem
  · exact Roster.mem_members.mpr (h.counted n hn).1

end Sound

namespace Steady

theorem refl (m : Manager) : Steady m m :=
  ⟨rfl, rfl, fun _ _ => rfl⟩

theorem trans {a b c : Manager} (h : Steady a b) (h' : Steady b c) : Steady a c :=
  ⟨h'.id.trans h.id, h'.members.trans h.members,
    fun p hp => (h'.free p (by rw [h.id]; exact hp)).trans (h.free p hp)⟩

theorem of_eq {m m' : Manager} (hid : m'.id = m.id) (hm : m'.members = m.members)
    (hc : m'.capacity = m.capacity) : Steady m m' :=
  ⟨hid, hm, fun _ _ => by rw [hc]⟩

theorem tell (m : Manager) (notice : Notice) : Steady m (m.tell notice) :=
  of_eq (tell_id m notice) (tell_members m notice) (tell_capacity m notice)

theorem addListener (m : Manager) (l : Listener) : Steady m (m.addListener l) := by
  rw [addListener_eq]
  split
  next => exact refl m
  next => exact of_eq rfl rfl rfl

theorem delta (m : Manager) (origin : NodeId) (c : Counter) : Steady m (m.delta origin c) := by
  unfold Manager.delta
  split
  next => exact tell m _
  next => exact refl m

theorem publish (m : Manager) (long : Bool) (free : UInt64) : Steady m (m.updateFree m.id long free) := by
  unfold Manager.updateFree
  split
  next =>
    refine ⟨tell_id _ _, tell_members _ _, ?_⟩
    intro p hp
    rw [tell_capacity, CapacityTable.get?_updatePool, if_neg hp]
  next => exact refl m

theorem persists : Persists (·.isHome) Steady where
  refl := refl
  trans := trans
  change m x hx := by
    cases x with
    | record c =>
      rw [change, record_eq]
      exact of_eq rfl rfl rfl
    | publish long free => exact publish m long free
    | hear notice =>
      cases notice with
      | delta origin c => exact delta m origin c
      | _ => cases hx
    | listener l => exact addListener m l
    | _ => exact of_eq rfl rfl rfl

theorem move (m : Manager) {x : Move} (hx : x.isHome) : Steady m (m.move x) :=
  persists.move m fun made => made.isHome hx

theorem record (m : Manager) (c : Counter) : Steady m (m.record c) :=
  persists.change m (x := .record c) rfl

theorem route (m : Manager) (work : Work) : Steady m (m.route work).1 :=
  persists.route m work fun _ _ => rfl

end Steady

@[simp] theorem hear_id (m : Manager) (notice : Notice) : (m.hear notice).id = m.id := by
  rcases m.hear_cases notice with e | ⟨_, e⟩
  · rw [e]
  · rw [e, tell_id]

theorem persists_id : Persists (fun _ => True) fun m m' => m'.id = m.id where
  refl _ := rfl
  trans h h' := h'.trans h
  change m x _ := by
    cases x with
    | record c => rw [change, record_eq]
    | publish long free => exact updateFree_id m m.id long free
    | hear notice => exact hear_id m notice
    | listener l =>
      rw [change, addListener_eq]
      split
      next => rfl
      next => rfl
    | _ => rfl

@[simp] theorem move_id (m : Manager) (x : Move) : (m.move x).id = m.id :=
  persists_id.move m fun _ => trivial

@[simp] theorem disband_id (m : Manager) : m.disband.id = m.id :=
  move_id m .disband

@[simp] theorem run_id (m : Manager) (moves : List Move) : (m.run moves).id = m.id := by
  induction moves generalizing m with
  | nil => rfl
  | cons x moves ih => exact (ih (m.move x)).trans (move_id m x)

end Manager

end Workshare
