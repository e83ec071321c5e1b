import Workshare.Proofs.Manager.Membership

namespace Workshare

def Effect.delta? : Effect → Option (NodeId × Counter)
  | .delta _ origin c => some (origin, c)
  | _ => none

/-- A small change by which nothing is heard of what others have counted, nor that somebody leaves. -/
def Change.isUntold : Change → Bool
  | .hear (.delta _ _) => false
  | .hear (.leave _) => false
  | _ => true

def Move.isUntold : Move → Bool
  | .hear (.delta _ _) => false
  | .hear (.leave _) => false
  | .disband => false
  | _ => true

theorem Move.Makes.isUntold {x : Move} {c : Change} (h : x.Makes c) (hx : x.isUntold) : c.isUntold := by
  cases h with
  | @hear notice => cases notice <;> first | rfl | cases hx
  | leave => cases hx
  | _ => rfl

namespace Manager

/-- The same manager later: the steps of its tally and the deltas that have left it since are the same. -/
structure Tells (m m' : Manager) : Prop where
  id : m'.id = m.id
  channel : m'.statistics.replicatesTo = m.statistics.replicatesTo
  told : ∃ (news : List Effect) (steps : List Counter), m'.outbox = m.outbox ++ news ∧ news.filterMap Effect.delta? = steps.map (m.id, ·) ∧
    ∀ c, m'.statistics.own.get c = m.statistics.own.get c + steps.count c

namespace Tells

theorem refl (m : Manager) : Tells m m :=
  ⟨rfl, rfl, [], [], by simp, by simp, by simp⟩

theorem trans {a b c : Manager} (h : Tells a b) (h' : Tells b c) : Tells a c := by
  obtain ⟨news, steps, hn, hd, ho⟩ := h.told
  obtain ⟨news', steps', hn', hd', ho'⟩ := h'.told
  refine ⟨h'.id.trans h.id, h'.channel.trans h.channel, news ++ news', steps ++ steps', ?_, ?_, ?_⟩
  · rw [hn', hn, List.append_assoc]
  · rw [List.filterMap_append, hd, hd', h.id, List.map_append]
  · intro d
    rw [ho' d, ho d, List.count_append, Nat.add_assoc]

/-- The outbox may grow by anything but deltas, and the statistics may learn of others. -/
theorem of_silent {m m' : Manager} (news : List Effect) (hid : m'.id = m.id)
    (hc : m'.statistics.replicatesTo = m.statistics.replicatesTo) (hown : m'.statistics.own = m.statistics.own)
    (hout : m'.outbox = m.outbox ++ news) (hn : ∀ e ∈ news, e.delta? = none) : Tells m m' := by
  refine ⟨hid, hc, news, [], hout, ?_, ?_⟩
  · rw [List.map_nil]
    exact List.filterMap_eq_nil_iff.mpr hn
  · intro c
    rw [hown, List.count_nil, Nat.add_zero]

theorem emit (m : Manager) {e : Effect} (he : e.isDelta = false) : Tells m (m.emit e) := by
  refine of_silent [e] rfl rfl rfl rfl ?_
  intro e' he'
  rw [List.mem_singleton.mp he']
  cases e <;> first | rfl | cases he

theorem delta?_notification {ls : List Listener} {notice : Notice} :
    ∀ e ∈ ls.filterMap (·.notification? notice), e.delta? = none := by
  intro e he
  obtain ⟨l, _, hl⟩ := List.mem_filterMap.mp he
  obtain ⟨tag, _, rfl⟩ := Option.map_eq_some_iff.mp hl
  rfl

theorem own_foldl_hear (notices : List Notice) (l : Listener) (s : Statistics) :
    (notices.foldl (fun s n => l.teach n s) s).own = s.own ∧
      (notices.foldl (fun s n => l.teach n s) s).replicatesTo = s.replicatesTo := by
  induction notices generalizing s with
  | nil => exact ⟨rfl, rfl⟩
  | cons n notices ih =>
    obtain ⟨ho, hr⟩ := ih (l.teach n s)
    have taught : (l.teach n s).own = s.own ∧ (l.teach n s).replicatesTo = s.replicatesTo := by
      cases l with
      | statistics =>
        have he : Listener.statistics.teach n s = s.hear n := rfl
        rw [he, Statistics.hear_eq]
        exact ⟨rfl, rfl⟩
      | waterMark tag mark => exact ⟨rfl, rfl⟩
      | external tag => exact ⟨rfl, rfl⟩
    exact ⟨ho.trans taught.1, hr.trans taught.2⟩

theorem own_foldl_teach (notice : Notice) (ls : List Listener) (s : Statistics) :
    (ls.foldl (fun s l => l.teach notice s) s).own = s.own ∧
      (ls.foldl (fun s l => l.teach notice s) s).replicatesTo = s.replicatesTo := by
  induction ls generalizing s with
  | nil => exact ⟨rfl, rfl⟩
  | cons l ls ih =>
    have one := own_foldl_hear [notice] l s
    exact ⟨(ih _).1.trans one.1, (ih _).2.trans one.2⟩

/-- Telling a notice leaves the own tally alone, whoever listens. -/
theorem tell (m : Manager) (notice : Notice) : Tells m (m.tell notice) := by
  obtain ⟨own, channel⟩ := own_foldl_teach notice m.listeners m.statistics
  rw [tell_eq]
  exact of_silent _ rfl channel own rfl delta?_notification

theorem told_after {m m₁ : Manager} (hid : m₁.id = m.id) (hs : m₁.statistics = m.statistics)
    (hout : m₁.outbox = m.outbox) (notice : Notice) : Tells m (m₁.tell notice) := by
  refine Tells.trans ?_ (tell m₁ notice)
  exact of_silent [] hid (by rw [hs]) (by rw [hs]) (by rw [hout, List.append_nil]) (by simp)

theorem hear (m : Manager) (notice : Notice) : Tells m (m.hear notice) := by
  rcases m.hear_cases notice with e | ⟨_, e⟩
  · rw [e]
    exact refl m
  · rw [e]
    exact told_after (by rfl) (by rfl) (by rfl) notice

theorem addListener (m : Manager) (l : Listener) : Tells m (m.addListener l) := by
  rw [addListener_eq]
  split
  next => exact refl m
  next =>
    obtain ⟨ho, hr⟩ := own_foldl_hear (replay m.capacity.entries) l m.statistics
    refine of_silent _ rfl hr ho rfl ?_
    intro e he
    obtain ⟨notice, _, hn⟩ := List.mem_filterMap.mp he
    obtain ⟨tag, _, rfl⟩ := Option.map_eq_some_iff.mp hn
    rfl

theorem record {m : Manager} (h : m.statistics.replicatesTo.isSome) (c : Counter) : Tells m (m.record c) := by
  obtain ⟨tag, ht⟩ := Option.isSome_iff_exists.mp h
  rw [record_eq, ht]
  refine ⟨rfl, rfl, [.delta tag m.id c], [c], rfl, rfl, ?_⟩
  intro d
  show (m.statistics.own.bump c).get d = _
  rw [Tally.get_bump, List.count_singleton]
  by_cases hd : d = c
  · simp [hd]
  · simp [hd, Ne.symm hd]

theorem persists : Persists (·.isPlain) fun m m' => m.statistics.replicatesTo.isSome → Tells m m' where
  refl m _ := refl m
  trans h h' hs := (h hs).trans (h' ((h hs).channel ▸ hs))
  change m x hx hs := by
    cases x with
    | emit e => exact emit m (Bool.not_eq_true' _ ▸ hx)
    | record c => exact record hs c
    | publish long free => exact hear m (.free m.id long free)
    | listener l => exact addListener m l
    | policy p => exact of_silent [] rfl rfl rfl (List.append_nil _).symm (by simp)
    | selector s => exact of_silent [] rfl rfl rfl (List.append_nil _).symm (by simp)
    | _ => cases hx

theorem move {m : Manager} (h : m.statistics.replicatesTo.isSome) {x : Move} (hx : x.isPlain) : Tells m (m.move x) :=
  persists.move m (fun made => made.isPlain hx) h

end Tells

theorem statistics_join (m : Manager) (n : NodeId) : (m.join n).statistics = m.statistics := by
  have silent : ∀ (ls : List Listener) (s : Statistics), ls.foldl (fun s l => l.teach (.join n) s) s = s := by
    intro ls s
    induction ls with
    | nil => rfl
    | cons l ls ih => cases l <;> exact ih
  unfold join
  rw [tell_eq]
  exact silent _ _

/-- The statistics know of the others what they knew before. -/
def Recalls (m m' : Manager) : Prop :=
  m'.statistics.peers = m.statistics.peers

namespace Recalls

theorem teach_free (l : Listener) (n : NodeId) (long : Bool) (free : UInt64) (s : Statistics) :
    l.teach (.free n long free) s = s := by
  cases l <;> rfl

theorem updateFree (m : Manager) (n : NodeId) (long : Bool) (free : UInt64) : Recalls m (m.updateFree n long free) := by
  have silent : ∀ (ls : List Listener) (s : Statistics),
      ls.foldl (fun s l => l.teach (.free n long free) s) s = s := by
    intro ls s
    induction ls with
    | nil => rfl
    | cons l ls ih => rw [List.foldl_cons, teach_free, ih]
  unfold Manager.updateFree
  split
  next =>
    rw [tell_eq]
    exact congrArg Statistics.peers (silent m.listeners m.statistics)
  next => rfl

theorem addListener (m : Manager) (l : Listener) : Recalls m (m.addListener l) := by
  have silent : ∀ (entries : List CapacityEntry) (s : Statistics),
      (replay entries).foldl (fun s n => l.teach n s) s = s := by
    intro entries
    induction entries with
    | nil => intro s; rfl
    | cons e entries ih =>
      intro s
      have hc : replay (e :: entries) = .free e.node false e.free.short :: .free e.node true e.free.long :: replay entries :=
        rfl
      rw [hc, List.foldl_cons, List.foldl_cons, teach_free, teach_free, ih]
  rw [addListener_eq]
  split
  next => rfl
  next => exact congrArg Statistics.peers (silent m.capacity.entries m.statistics)

theorem persists : Persists (·.isUntold) Recalls where
  refl _ := rfl
  trans h h' := Eq.trans h' h
  change m x hx := by
    cases x with
    | record c =>
      rw [change, record_eq]
      rfl
    | publish long free => exact updateFree m m.id long free
    | hear notice =>
      cases notice with
      | join n => exact congrArg Statistics.peers (statistics_join m n)
      | free n long free => exact updateFree m n long free
      | _ => cases hx
    | listener l => exact addListener m l
    | _ => rfl

theorem move (m : Manager) {x : Move} (hx : x.isUntold) : Recalls m (m.move x) :=
  persists.move m fun made => made.isUntold hx

end Recalls

theorem statistics_leave {m : Manager} (h : Sound m) {n : NodeId} (hn : n ≠ m.id) :
    (m.leave n).statistics = m.statistics.forget n := by
  rw [leave, if_neg hn]
  exact tell_statistics (by exact h.heard) _

/-- The delta of a member counts once; the own one, should it come back, does not. -/
theorem delta_peers {m : Manager} (h : Sound m) {origin : NodeId} (ho : m.members.contains origin) (c : Counter)
    (p : NodeId) :
    (m.delta origin c).statistics.peers.get? p =
      if p = origin ∧ origin ≠ m.id then some (((m.statistics.peers.get? p).getD .zero).bump c)
      else m.statistics.peers.get? p := by
  unfold Manager.delta
  rw [if_pos ho, tell_statistics h.heard]
  have hd := Statistics.get?_addDelta m.statistics origin p c
  rw [h.self] at hd
  exact hd

end Manager

end Workshare
