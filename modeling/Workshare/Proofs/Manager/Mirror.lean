import Workshare.Proofs.Manager.Announcements
import Workshare.Proofs.Manager.Relays

namespace Workshare

namespace CapacityTable

theorem ext_get? {s t : CapacityTable} (h : ∀ n, s.get? n = t.get? n) : s = t := by
  cases s
  cases t
  exact congrArg CapacityTable.mk (Table.ext_get? h)

end CapacityTable

namespace Manager

theorem replay_cons (e : CapacityEntry) (entries : List CapacityEntry) :
    replay (e :: entries) = .free e.node false e.free.short :: .free e.node true e.free.long :: replay entries :=
  rfl

theorem get?_hear_both (t : CapacityTable) (n p : NodeId) (free : Free) :
    ((t.hear (.free n false free.short)).hear (.free n true free.long)).get? p =
      if p = n then some free else t.get? p := by
  unfold CapacityTable.hear
  dsimp only
  rw [CapacityTable.get?_updatePool]
  split
  next => rw [CapacityTable.get?_updatePool, if_pos rfl]; rfl
  next other => rw [CapacityTable.get?_updatePool, if_neg other]

theorem get?_hear_replay (l : List (NodeId × Free)) (sorted : l.Pairwise (·.1 < ·.1)) (t : CapacityTable) (p : NodeId) :
    ((replay (l.map fun e => ⟨e.1, e.2⟩)).foldl CapacityTable.hear t).get? p = (Table.find p l).or (t.get? p) := by
  induction l generalizing t with
  | nil => rfl
  | cons e l ih =>
    obtain ⟨first, rest⟩ := List.pairwise_cons.mp sorted
    rw [List.map_cons, replay_cons, List.foldl_cons, List.foldl_cons, ih rest, get?_hear_both]
    by_cases hp : p = e.1
    · have later : Table.find p l = none := by
        cases hf : Table.find p l with
        | none => rfl
        | some free =>
          have above := first _ (Table.mem_of_find_eq_some hf)
          exact absurd (hp ▸ above) (Key.irrefl _)
      rw [later, if_pos hp, Table.find, if_pos hp]
      rfl
    · rw [if_neg hp, Table.find, if_neg hp]

/-- The replay is enough to know a capacity table. -/
theorem ofNotices_replay (t : CapacityTable) : CapacityTable.ofNotices (replay t.entries) = t := by
  refine CapacityTable.ext_get? fun p => ?_
  rw [CapacityTable.ofNotices, CapacityTable.entries, get?_hear_replay _ t.table.sorted]
  exact Option.or_none

/-- A water mark knows the free workers of its node. -/
def Watches (t : CapacityTable) (mark : WaterMark) : Prop :=
  t.get? mark.node = some mark.free

@[simp] theorem node_hear (mark : WaterMark) (notice : Notice) :
    (mark.hear notice).node = mark.node ∧ (mark.hear notice).level = mark.level := by
  cases notice <;> simp only [WaterMark.hear, and_self]
  split <;> exact ⟨rfl, rfl⟩

theorem node_foldl_hear (ns : List Notice) (mark : WaterMark) :
    (ns.foldl WaterMark.hear mark).node = mark.node ∧ (ns.foldl WaterMark.hear mark).level = mark.level := by
  induction ns generalizing mark with
  | nil => exact ⟨rfl, rfl⟩
  | cons n ns ih =>
    obtain ⟨node, level⟩ := ih (mark.hear n)
    exact ⟨node.trans (node_hear mark n).1, level.trans (node_hear mark n).2⟩

/-- What is a water mark after some notices was one before. -/
theorem eq_waterMark_of_foldl_hear {ns : List Notice} {l : Listener} {tag : Tag} {mark : WaterMark}
    (h : ns.foldl Listener.hear l = .waterMark tag mark) :
    ∃ mark₀, l = .waterMark tag mark₀ ∧ ns.foldl WaterMark.hear mark₀ = mark := by
  induction ns generalizing l with
  | nil => exact ⟨mark, h, rfl⟩
  | cons n ns ih =>
    obtain ⟨mark₁, heard, rfl⟩ := ih h
    cases l with
    | statistics => cases heard
    | external t => cases heard
    | waterMark t mark₀ => cases heard; exact ⟨mark₀, rfl, rfl⟩

theorem foldl_hear_waterMark (tag : Tag) (mark : WaterMark) (ns : List Notice) :
    ns.foldl Listener.hear (.waterMark tag mark) = .waterMark tag (ns.foldl WaterMark.hear mark) := by
  induction ns generalizing mark with
  | nil => rfl
  | cons n ns ih => exact ih (mark.hear n)

theorem Watches.hear {t : CapacityTable} {mark : WaterMark} (h : Watches t mark) {notice : Notice}
    (stays : notice ≠ .leave mark.node) : Watches (t.hear notice) (mark.hear notice) := by
  unfold Watches at h ⊢
  rw [(node_hear mark notice).1]
  cases notice with
  | join n =>
    show (t.register n).get? mark.node = some mark.free
    rw [CapacityTable.get?_register, h]
    split <;> rfl
  | leave n =>
    show (t.remove n).get? mark.node = some mark.free
    rw [CapacityTable.get?_remove, if_neg fun e => stays (congrArg Notice.leave e.symm), h]
  | free n long count =>
    show (t.updatePool n long count).get? mark.node = some (mark.hear (.free n long count)).free
    rw [CapacityTable.get?_updatePool, WaterMark.hear]
    by_cases hn : n = mark.node
    · rw [if_pos hn.symm, if_pos hn, hn, h]
      rfl
    · rw [if_neg (Ne.symm hn), if_neg hn, h]
  | delta origin c => exact h

theorem Watches.foldl {t : CapacityTable} {mark : WaterMark} (h : Watches t mark) {ns : List Notice}
    (stays : .leave mark.node ∉ ns) : Watches (ns.foldl CapacityTable.hear t) (ns.foldl WaterMark.hear mark) := by
  induction ns generalizing t mark with
  | nil => exact h
  | cons n ns ih =>
    have first : n ≠ .leave mark.node := fun e => stays (e ▸ List.mem_cons_self)
    refine ih (h.hear first) fun hm => ?_
    rw [(node_hear mark n).1] at hm
    exact stays (List.mem_cons_of_mem _ hm)

theorem free_hear_both (mark : WaterMark) (n : NodeId) (free : Free) :
    ((mark.hear (.free n false free.short)).hear (.free n true free.long)).free =
      if mark.node = n then free else mark.free := by
  unfold WaterMark.hear
  dsimp only
  by_cases hn : n = mark.node
  · simp only [hn, if_true]
    rfl
  · simp only [if_neg hn, if_neg (Ne.symm hn)]

/-- A replay sets both pools of a node, so that it does not matter what a water mark began with. -/
theorem watches_replay (entries : List CapacityEntry) {t : CapacityTable} {mark : WaterMark}
    (h : ∀ free, t.get? mark.node = some free → mark.free = free) {free : Free}
    (known : ((replay entries).foldl CapacityTable.hear t).get? mark.node = some free) :
    ((replay entries).foldl WaterMark.hear mark).free = free := by
  induction entries generalizing t mark with
  | nil => exact h free known
  | cons e entries ih =>
    rw [replay_cons, List.foldl_cons, List.foldl_cons] at known ⊢
    have node : ((mark.hear (.free e.node false e.free.short)).hear (.free e.node true e.free.long)).node = mark.node :=
      (node_hear _ _).1.trans (node_hear _ _).1
    refine ih (fun f hf => ?_) (node.symm ▸ known)
    rw [node, get?_hear_both] at hf
    rw [free_hear_both]
    split at hf
    next same => rw [if_pos same]; exact Option.some.inj hf
    next other => rw [if_neg other]; exact h f hf

structure Mirrored (m : Manager) : Prop where
  /-- Nobody is registered twice. -/
  distinct : m.tags.Nodup
  mirror : ∀ tag ∈ m.tags, CapacityTable.ofNotices (m.received tag) = m.capacity
  before : ∀ tag, tag ∉ m.tags → m.received tag = []
  watched : ∀ tag mark, .waterMark tag mark ∈ m.listeners → mark.node = m.id → Watches m.capacity mark

theorem leave_not_mem_news (m : Manager) (x : Move) : .leave m.id ∉ m.news x := by
  cases x with
  | hear notice =>
    cases notice with
    | join n => simp [news]
    | leave n =>
      rw [news]
      split
      next => exact List.not_mem_nil
      next other => simpa using Ne.symm other
    | free n long count => rw [news]; split <;> simp
    | delta origin c => rw [news]; split <;> simp
  | submit free mode work => rw [news]; split <;> simp [lessOne]
  | submitHere free mode work => simp [news, lessOne]
  | complete free long success => simp [news]
  | announceAll free => simp [news]
  | disband =>
    intro h
    obtain ⟨p, hp, e⟩ := List.mem_map.mp h
    exact (Roster.mem_peers.mp hp).2 (Notice.leave.inj e)
  | _ => simp [news]

namespace Mirrored

theorem relays {m m' : Manager} (h : Mirrored m) {ns : List Notice} (id : m'.id = m.id) (hr : Relays m m' ns)
    (stays : .leave m.id ∉ ns) : Mirrored m' := by
  have told : ∀ tag, tag ∈ m.tags → m'.received tag = m.received tag ++ ns := by
    intro tag ht
    rw [hr.received, h.distinct.count, if_pos ht]
    simp
  refine ⟨hr.tags ▸ h.distinct, fun tag ht => ?_, fun tag ht => ?_, fun tag mark hm own => ?_⟩
  · rw [hr.tags] at ht
    have mirror := h.mirror tag ht
    unfold CapacityTable.ofNotices at mirror ⊢
    rw [told tag ht, List.foldl_append, mirror, hr.capacity]
  · rw [hr.tags] at ht
    rw [hr.received, h.before tag ht, List.count_eq_zero_of_not_mem ht]
    simp
  · rw [hr.listeners] at hm
    obtain ⟨l, hl, e⟩ := List.mem_map.mp hm
    obtain ⟨mark₀, rfl, rfl⟩ := eq_waterMark_of_foldl_hear e
    rw [id, (node_foldl_hear ns mark₀).1] at own
    rw [hr.capacity]
    exact (h.watched tag mark₀ hl own).foldl (own ▸ stays)

theorem enrols_again {m m' : Manager} (h : Mirrored m) {l : Listener} (id : m'.id = m.id) (he : Enrols m m' l)
    (known : m.listeners.any (·.tag? = l.tag?)) : Mirrored m' := by
  have listeners : m'.listeners = m.listeners := he.listeners.trans (if_pos known)
  have tags : m'.tags = m.tags := by
    unfold Manager.tags
    rw [listeners]
  have received : ∀ tag, m'.received tag = m.received tag := by
    intro tag
    rw [he.received, if_neg, List.append_nil]
    rintro ⟨ht, fresh⟩
    rw [any_tag ht, decide_eq_true_eq] at known
    exact fresh known
  refine ⟨tags ▸ h.distinct, fun tag ht => ?_, fun tag ht => ?_, fun tag mark hm own => ?_⟩
  · rw [received, he.capacity]
    exact h.mirror tag (tags ▸ ht)
  · rw [received]
    exact h.before tag (tags ▸ ht)
  · rw [he.capacity]
    exact h.watched tag mark (listeners ▸ hm) (id ▸ own)

theorem enrols_anew {m m' : Manager} (h : Mirrored m) (hs : Sound m) {l : Listener} (id : m'.id = m.id)
    (he : Enrols m m' l) {t : Tag} (ht : l.tag? = some t) (fresh : t ∉ m.tags) : Mirrored m' := by
  have listeners := he.listeners
  rw [any_tag ht, decide_eq_false fresh, if_neg Bool.false_ne_true] at listeners
  have tags : m'.tags = m.tags ++ [t] := by
    unfold Manager.tags
    rw [listeners, List.filterMap_append]
    simp [ht]
  have received : ∀ tag, m'.received tag = m.received tag ++ if tag = t then replay m.capacity.entries else [] := by
    intro tag
    rw [he.received, ht]
    by_cases same : tag = t
    · rw [if_pos same, if_pos ⟨congrArg some same.symm, same ▸ fresh⟩]
    · rw [if_neg same, if_neg fun h => same (Option.some.inj h.1).symm]
  refine ⟨?_, fun tag hm => ?_, fun tag hm => ?_, fun tag mark hm own => ?_⟩
  · rw [tags]
    refine List.nodup_append.mpr ⟨h.distinct, List.pairwise_singleton _ t, fun a ha b hb e => fresh ?_⟩
    rw [← List.mem_singleton.mp hb, ← e]
    exact ha
  · rw [received, he.capacity]
    by_cases same : tag = t
    · rw [if_pos same, same, h.before t fresh]
      exact ofNotices_replay m.capacity
    · rw [if_neg same, List.append_nil]
      rw [tags] at hm
      exact h.mirror tag ((List.mem_append.mp hm).resolve_right fun e => same (List.mem_singleton.mp e))
  · rw [tags, List.mem_append, List.mem_singleton, not_or] at hm
    rw [received, if_neg hm.2, List.append_nil]
    exact h.before tag hm.1
  · rw [he.capacity]
    rw [listeners] at hm
    rcases List.mem_append.mp hm with hm | hm
    · exact h.watched tag mark hm (id ▸ own)
    · obtain ⟨mark₀, _, rfl⟩ := eq_waterMark_of_foldl_hear (List.mem_singleton.mp hm).symm
      obtain ⟨free, entry⟩ := hs.own_entry
      have node : mark₀.node = m.id := (node_foldl_hear _ mark₀).1.symm.trans (own.trans id)
      have known : (CapacityTable.ofNotices (replay m.capacity.entries)).get? mark₀.node = some free := by
        rw [ofNotices_replay, node]
        exact entry
      have unknown : ∀ free, CapacityTable.empty.get? mark₀.node = some free → mark₀.free = free :=
        fun _ h => absurd h (Option.some_ne_none _).symm
      rw [Watches, own, id, entry, watches_replay m.capacity.entries unknown known]

theorem move {m : Manager} (h : Mirrored m) (hs : Sound m) (x : Move) : Mirrored (m.move x) := by
  cases hb : x.brings? with
  | none => exact h.relays (move_id m x) (.move hs.member hb) (leave_not_mem_news m x)
  | some l =>
    obtain ⟨he, _⟩ := Enrols.move m hb
    by_cases known : m.listeners.any (·.tag? = l.tag?)
    · exact h.enrols_again (move_id m x) he known
    · cases ht : l.tag? with
      | some t =>
        rw [any_tag ht, decide_eq_true_eq] at known
        exact h.enrols_anew hs (move_id m x) he ht known
      | none =>
        -- the statistics have no tag, and are registered from the start
        have mem : Listener.statistics ∈ m.listeners := List.count_pos_iff.mp (by rw [hs.heard]; exact Nat.one_pos)
        exact absurd (List.any_eq_true.mpr ⟨_, mem, decide_eq_true ht.symm⟩) known

theorem start (id : NodeId) (settings : ManagerSettings) (free : Free) : Mirrored (start id settings free) where
  distinct := .nil
  mirror _ h := absurd h List.not_mem_nil
  before _ _ := rfl
  watched tag mark h := by cases List.mem_singleton.mp h

theorem run {m : Manager} (h : Mirrored m) (hs : Sound m) (moves : List Move) : Mirrored (m.run moves) := by
  induction moves generalizing m with
  | nil => exact h
  | cons x moves ih => exact ih (h.move hs x) (hs.move x)

end Mirrored

def brought (moves : List Move) : List Listener :=
  moves.filterMap Move.brings?

/-- A tag names one instance. -/
def Named (moves : List Move) : Prop :=
  ∀ k ∈ brought moves, ∀ l ∈ brought moves, k.tag? = l.tag? → k = l

theorem mem_brought_cons {x : Move} {moves : List Move} {l : Listener} :
    l ∈ brought (x :: moves) ↔ x.brings? = some l ∨ l ∈ brought moves := by
  simp only [brought, List.mem_filterMap, List.mem_cons, exists_eq_or_imp]

theorem mem_tags_move {m : Manager} (hs : Sound m) (x : Move) (tag : Tag) :
    tag ∈ (m.move x).tags ↔ tag ∈ m.tags ∨ ∃ l, x.brings? = some l ∧ l.tag? = some tag := by
  cases hb : x.brings? with
  | none =>
    rw [(Relays.move hs.member hb).tags]
    simp
  | some l =>
    have listeners := (Enrols.move m hb).1.listeners
    simp only [Option.some.injEq, exists_eq_left']
    cases ht : l.tag? with
    | none =>
      rw [Manager.tags, listeners]
      split
      next => simp [Manager.tags]
      next => simp [Manager.tags, List.filterMap_append, ht]
    | some t =>
      rw [any_tag ht] at listeners
      by_cases known : t ∈ m.tags
      · rw [decide_eq_true known, if_pos rfl] at listeners
        rw [Manager.tags, listeners]
        refine ⟨.inl, fun h => ?_⟩
        rcases h with h | h
        · exact h
        · exact Option.some.inj h ▸ known
      · rw [decide_eq_false known, if_neg Bool.false_ne_true] at listeners
        rw [Manager.tags, listeners]
        simp [Manager.tags, List.filterMap_append, ht, eq_comm]

/-- What a move adds to what a listener has heard: its notices, each once and in order, if the listener was registered
before, and the table if the move has registered it. -/
theorem Mirrored.received_move {m : Manager} (h : Mirrored m) (hs : Sound m) (x : Move) (tag : Tag) :
    (m.move x).received tag = m.received tag ++
      if tag ∈ m.tags then m.news x else if tag ∈ (m.move x).tags then replay m.capacity.entries else [] := by
  cases hb : x.brings? with
  | none =>
    have relays := Relays.move hs.member hb
    rw [relays.received, relays.tags, h.distinct.count]
    split <;> simp
  | some l =>
    obtain ⟨enrols, quiet⟩ := Enrols.move m hb
    have joined := mem_tags_move hs x tag
    simp only [hb, Option.some.injEq, exists_eq_left'] at joined
    rw [enrols.received, quiet]
    by_cases known : tag ∈ m.tags
    · rw [if_pos known, if_neg fun h => h.2 known]
    · rw [if_neg known]
      by_cases ht : l.tag? = some tag
      · rw [if_pos ⟨ht, known⟩, if_pos (joined.mpr (.inr ht))]
      · rw [if_neg fun h => ht h.1, if_neg fun h => (joined.mp h).elim known ht]

theorem mem_tags_run {m : Manager} (hs : Sound m) (moves : List Move) (tag : Tag) :
    tag ∈ (m.run moves).tags ↔ tag ∈ m.tags ∨ ∃ l ∈ brought moves, l.tag? = some tag := by
  induction moves generalizing m with
  | nil => simp [brought]
  | cons x moves ih =>
    rw [show m.run (x :: moves) = (m.move x).run moves from rfl, ih (hs.move x), mem_tags_move hs]
    simp only [mem_brought_cons, or_and_right, exists_or, or_assoc]

/-- The same instance later: it has heard something. -/
def Later (l₀ l : Listener) : Prop :=
  ∃ ns : List Notice, ns.foldl Listener.hear l₀ = l

theorem Later.refl (l : Listener) : Later l l :=
  ⟨[], rfl⟩

theorem Later.trans {a b c : Listener} (h : Later a b) (h' : Later b c) : Later a c := by
  obtain ⟨ns, rfl⟩ := h
  obtain ⟨more, rfl⟩ := h'
  exact ⟨ns ++ more, List.foldl_append⟩

theorem origin_move {m : Manager} (hs : Sound m) (x : Move) {l : Listener} (hl : l ∈ (m.move x).listeners) :
    ∃ l₀, Later l₀ l ∧ (l₀ ∈ m.listeners ∨ x.brings? = some l₀) := by
  cases hb : x.brings? with
  | none =>
    rw [(Relays.move hs.member hb).listeners] at hl
    obtain ⟨l₀, hm, e⟩ := List.mem_map.mp hl
    exact ⟨l₀, ⟨_, e⟩, .inl hm⟩
  | some k =>
    rw [(Enrols.move m hb).1.listeners] at hl
    split at hl
    next => exact ⟨l, .refl l, .inl hl⟩
    next =>
      rcases List.mem_append.mp hl with hm | hm
      · exact ⟨l, .refl l, .inl hm⟩
      · exact ⟨k, ⟨_, (List.mem_singleton.mp hm).symm⟩, .inr rfl⟩

theorem origin_run {m : Manager} (hs : Sound m) (moves : List Move) {l : Listener} (hl : l ∈ (m.run moves).listeners) :
    ∃ l₀, Later l₀ l ∧ (l₀ ∈ m.listeners ∨ l₀ ∈ brought moves) := by
  induction moves generalizing m with
  | nil => exact ⟨l, .refl l, .inl hl⟩
  | cons x moves ih =>
    obtain ⟨l₁, later, h₁⟩ := ih (hs.move x) hl
    rcases h₁ with h₁ | h₁
    · obtain ⟨l₀, earlier, h₀⟩ := origin_move hs x h₁
      exact ⟨l₀, earlier.trans later, h₀.imp_right fun h => mem_brought_cons.mpr (.inl h)⟩
    · exact ⟨l₁, later, .inr (mem_brought_cons.mpr (.inr h₁))⟩

theorem waterMark_mem {m : Manager} {tag : Tag} {mark : WaterMark} (h : m.waterMark? tag = some mark) :
    .waterMark tag mark ∈ m.listeners := by
  unfold waterMark? at h
  obtain ⟨l, hl, e⟩ := List.exists_of_findSome?_eq_some h
  cases l with
  | statistics => cases e
  | external t => cases e
  | waterMark t mark' =>
    dsimp only at e
    split at e
    next same => cases e; exact same ▸ hl
    next => cases e

theorem isSome_waterMark? {m : Manager} {tag : Tag} {mark : WaterMark} (h : .waterMark tag mark ∈ m.listeners) :
    (m.waterMark? tag).isSome := by
  unfold waterMark?
  rw [List.findSome?_isSome_iff]
  exact ⟨_, h, by simp⟩

theorem waterMark?_of_brought (id : NodeId) (settings : ManagerSettings) (free : Free) {moves : List Move}
    (named : Named moves) {tag : Tag} {mark₀ : WaterMark} (h : .waterMark tag mark₀ ∈ brought moves) :
    ∃ mark, ((start id settings free).run moves).waterMark? tag = some mark ∧
      mark.node = mark₀.node ∧ mark.level = mark₀.level := by
  have sound := Sound.start id settings free
  have instances : ∀ l ∈ ((start id settings free).run moves).listeners, l.tag? = some tag →
      ∃ ns, l = .waterMark tag (List.foldl WaterMark.hear mark₀ ns) := by
    intro l hl ht
    obtain ⟨l₀, ⟨ns, rfl⟩, h₀⟩ := origin_run sound moves hl
    rw [Listener.tag?_foldl_hear] at ht
    rcases h₀ with h₀ | h₀
    · rw [List.mem_singleton.mp h₀] at ht
      cases ht
    · rw [named l₀ h₀ _ h ht]
      exact ⟨ns, foldl_hear_waterMark tag mark₀ ns⟩
  obtain ⟨l, hl, ht⟩ := mem_tags.mp ((mem_tags_run sound moves tag).mpr (.inr ⟨_, h, rfl⟩))
  obtain ⟨ns, rfl⟩ := instances l hl ht
  obtain ⟨mark, found⟩ := Option.isSome_iff_exists.mp (isSome_waterMark? hl)
  obtain ⟨ns', e⟩ := instances _ (waterMark_mem found) rfl
  cases e
  exact ⟨_, found, node_foldl_hear ns' mark₀⟩

/-- Every listener can mirror the capacity table. A listener is registered once it has been brought. Whoever is
registered has heard the table when it was new and every notice since, once and in order; going by what it has
heard gives the table. A water mark of the own node answers as the own entry says, and so does it as the policy.
-/
theorem run_mirrors (id : NodeId) (settings : ManagerSettings) (free : Free) (moves : List Move) :
    let m := (start id settings free).run moves
    (∀ tag, tag ∈ m.tags ↔ ∃ l ∈ brought moves, l.tag? = some tag) ∧
    (∀ tag ∈ m.tags, CapacityTable.ofNotices (m.received tag) = m.capacity) ∧
    (∀ tag, tag ∉ m.tags → m.received tag = []) ∧
    (∀ x tag, (m.move x).received tag = m.received tag ++
      if tag ∈ m.tags then m.news x else if tag ∈ (m.move x).tags then replay m.capacity.entries else []) ∧
    ∃ own, m.capacity.get? id = some own ∧
      (∀ tag mark work, .waterMark tag mark ∈ m.listeners → mark.node = id →
        mark.distributes work = decide (own.ofPool work.longRunning ≤ mark.level)) ∧
      (Named moves → ∀ p mark work, .policy p ∈ moves → p.rule = .waterMark mark → mark.node = id →
        m.asksPolicy p work = .ok (decide (own.ofPool work.longRunning ≤ mark.level))) := by
  intro m
  have started := Sound.start id settings free
  have sound : Sound m := started.run moves
  have mirrored : Mirrored m := (Mirrored.start id settings free).run started moves
  have self : m.id = id := run_id _ moves
  obtain ⟨own, entry⟩ := sound.own_entry
  rw [self] at entry
  have knows : ∀ tag mark, .waterMark tag mark ∈ m.listeners → mark.node = id → mark.free = own := by
    intro tag mark hm node
    have watched := mirrored.watched tag mark hm (node.trans self.symm)
    rw [Watches, node, entry] at watched
    exact (Option.some.inj watched).symm
  refine ⟨fun tag => ?_, mirrored.mirror, mirrored.before, mirrored.received_move sound, own, entry,
    fun tag mark work hm node => ?_, fun named p mark work hp rule node => ?_⟩
  · have none : tag ∉ (start id settings free).tags := List.not_mem_nil
    rw [mem_tags_run started]
    exact ⟨fun h => h.resolve_left none, .inr⟩
  · rw [WaterMark.distributes, knows tag mark hm node]
  -- the mark that a policy came with still listens, with the count that it has heard since
  · have brings : .waterMark p.tag mark ∈ brought moves := by
      obtain ⟨tag, _⟩ := p
      cases rule
      exact List.mem_filterMap.mpr ⟨_, hp, rfl⟩
    obtain ⟨now, found, sameNode, sameLevel⟩ := waterMark?_of_brought id settings free named brings
    have current := knows p.tag now (waterMark_mem found) (sameNode.trans node)
    rw [asksPolicy, rule]
    dsimp only
    rw [found, Option.getD_some, WaterMark.distributes, current, sameLevel]

/-- A log hears everything from the start, a water mark comes later. -/
def lateMark : List Move :=
  [.listener (.external ⟨"log", 0⟩), .hear (.join ⟨"b"⟩), .hear (.free ⟨"b"⟩ true 3),
    .policy ⟨⟨"mark", 0⟩, .waterMark (.start ⟨"a"⟩ 1)⟩, .submitHere ⟨2, 0⟩ .start parcel, .disband]

theorem run_mirrors_lateMark :
    let m := (start ⟨"a"⟩ .default ⟨2, 0⟩).run lateMark
    Named lateMark ∧ .policy ⟨⟨"mark", 0⟩, .waterMark (.start ⟨"a"⟩ 1)⟩ ∈ lateMark ∧
      m.asksPolicy ⟨⟨"mark", 0⟩, .waterMark (.start ⟨"a"⟩ 1)⟩ parcel = .ok true ∧
      m.received ⟨"mark", 0⟩ =
        [.free ⟨"a"⟩ false 2, .free ⟨"a"⟩ true 0, .free ⟨"b"⟩ false 0, .free ⟨"b"⟩ true 3, .free ⟨"a"⟩ false 1,
          .leave ⟨"b"⟩] ∧
      CapacityTable.ofNotices (m.received ⟨"mark", 0⟩) = m.capacity ∧
      CapacityTable.ofNotices (m.received ⟨"log", 0⟩) = m.capacity := by
  intro m
  have named : Named lateMark := by unfold Named; decide
  have installed : .policy ⟨⟨"mark", 0⟩, .waterMark (.start ⟨"a"⟩ 1)⟩ ∈ lateMark := by simp [lateMark]
  obtain ⟨enrolled, mirrors, _, _, own, entry, _, answers⟩ := run_mirrors ⟨"a"⟩ .default ⟨2, 0⟩ lateMark
  have one : own = ⟨1, 0⟩ := Option.some.inj (entry.symm.trans rfl)
  have answer := answers named _ _ parcel installed rfl rfl
  rw [one] at answer
  have mark : .waterMark ⟨"mark", 0⟩ (.start ⟨"a"⟩ 1) ∈ brought lateMark := by decide
  have log : .external ⟨"log", 0⟩ ∈ brought lateMark := by decide
  exact ⟨named, installed, answer, rfl, mirrors _ ((enrolled _).mpr ⟨_, mark, rfl⟩),
    mirrors _ ((enrolled _).mpr ⟨_, log, rfl⟩)⟩

end Manager

end Workshare
