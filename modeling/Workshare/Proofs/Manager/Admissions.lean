import Workshare.Proofs.Manager.Membership
import Workshare.Proofs.Manager.Routing

namespace Workshare

/-- A small change that leaves the transport alone. -/
def Change.isWireless : Change → Bool
  | .transport _ => false
  | .channel _ => false
  | _ => true

namespace Manager

/-- The transport that is told of what the node counts, while it replicates. -/
def channel (m : Manager) : Option Tag :=
  if m.statistics.enabled then m.transport else none

/-- The statistics go by the transport of the manager. -/
def Wired (m : Manager) : Prop :=
  m.statistics.transport = m.transport

theorem Wired.replicatesTo {m : Manager} (h : m.Wired) : m.statistics.replicatesTo = m.channel := by
  unfold Statistics.replicatesTo channel
  rw [h]

theorem transport_teach (l : Listener) (notice : Notice) (s : Statistics) :
    (l.teach notice s).transport = s.transport := by
  cases l with
  | statistics =>
    show (s.hear notice).transport = s.transport
    rw [Statistics.hear_eq]
  | waterMark tag mark => rfl
  | external tag => rfl

theorem transport_foldl {α : Type} {step : Statistics → α → Statistics}
    (same : ∀ s x, (step s x).transport = s.transport) (xs : List α) (s : Statistics) :
    (xs.foldl step s).transport = s.transport := by
  induction xs generalizing s with
  | nil => rfl
  | cons x xs ih => rw [List.foldl_cons, ih, same]

/-- The transport, to the manager and to the statistics, is what it was. -/
structure KeepsWire (m m' : Manager) : Prop where
  statistics : m'.statistics.transport = m.statistics.transport
  manager : m'.transport = m.transport

namespace KeepsWire

theorem refl (m : Manager) : KeepsWire m m :=
  ⟨rfl, rfl⟩

theorem trans {a b c : Manager} (h : KeepsWire a b) (h' : KeepsWire b c) : KeepsWire a c :=
  ⟨h'.statistics.trans h.statistics, h'.manager.trans h.manager⟩

theorem wired {m m' : Manager} (h : KeepsWire m m') (wired : m.Wired) : m'.Wired :=
  h.statistics.trans (wired.trans h.manager.symm)

theorem tell (m : Manager) (notice : Notice) : KeepsWire m (m.tell notice) := by
  rw [tell_eq]
  exact ⟨transport_foldl (fun s l => transport_teach l notice s) m.listeners m.statistics, rfl⟩

theorem told {m m₁ : Manager} (statistics : m₁.statistics.transport = m.statistics.transport)
    (transport : m₁.transport = m.transport) (notice : Notice) : KeepsWire m (m₁.tell notice) :=
  trans ⟨statistics, transport⟩ (tell m₁ notice)

theorem addListener (m : Manager) (l : Listener) : KeepsWire m (m.addListener l) := by
  rw [addListener_eq]
  split
  next => exact refl m
  next => exact ⟨transport_foldl (fun s n => transport_teach l n s) _ m.statistics, rfl⟩

theorem hear (m : Manager) (notice : Notice) : KeepsWire m (m.hear notice) := by
  rcases m.hear_cases notice with e | ⟨_, e⟩
  · rw [e]
    exact refl m
  · rw [e]
    exact told (by rfl) (by rfl) notice

theorem persists : Persists (·.isWireless) KeepsWire where
  refl := refl
  trans := trans
  change m x hx := by
    cases x with
    | record c =>
      rw [change, record_eq]
      exact ⟨rfl, rfl⟩
    | publish long free => exact hear m (.free m.id long free)
    | hear notice => exact hear m notice
    | listener l => exact addListener m l
    | transport tag => cases hx
    | channel tag => cases hx
    | _ => exact ⟨rfl, rfl⟩

end KeepsWire

theorem Wired.move {m : Manager} (h : m.Wired) (x : Move) : (m.move x).Wired := by
  cases x with
  | transport tag listens =>
    let attached := { m.emit (.attach tag) with statistics := { m.statistics with transport := some tag } }
    have kept := KeepsWire.addListener attached (.external tag)
    show (m.setTransport tag listens).Wired
    unfold Manager.setTransport
    dsimp only
    split
    next => exact kept.statistics
    next => rfl
  | _ => exact (KeepsWire.persists.move m fun made => by cases made <;> rfl).wired h

theorem Wired.run {m : Manager} (h : m.Wired) (moves : List Move) : (m.run moves).Wired := by
  induction moves generalizing m with
  | nil => exact h
  | cons x moves ih => exact ih (h.move x)

theorem Wired.start (id : NodeId) (settings : ManagerSettings) (free : Free) : (start id settings free).Wired :=
  rfl

/-- The same manager later, which in between has published the free workers of one of its pools: they stand in the
capacity table, then each listener has heard of them, and then the transport. -/
structure Publishes (m m' : Manager) (long : Bool) (free : UInt64) : Prop where
  entry : ∃ before, m.capacity.get? m.id = some before ∧ m'.capacity.get? m.id = some (before.setPool long free)
  others : ∀ p, p ≠ m.id → m'.capacity.get? p = m.capacity.get? p
  listeners : m'.listeners = m.listeners.map (·.hear (.free m.id long free))
  outbox : m'.outbox = m.outbox ++ m.listeners.filterMap (·.notification? (.free m.id long free)) ++
    (m.transport.map (.announce · m.id long free)).toList
  rest : { m' with capacity := m.capacity, listeners := m.listeners, outbox := m.outbox } = m

theorem announce_eq {m : Manager} (sound : m.Sound) (long : Bool) (free : UInt64) :
    m.announce long free =
      { m with
        capacity := m.capacity.updatePool m.id long free
        listeners := m.listeners.map (·.hear (.free m.id long free))
        outbox := m.outbox ++ m.listeners.filterMap (·.notification? (.free m.id long free)) ++
          (m.transport.map (.announce · m.id long free)).toList } := by
  have unmoved : m.listeners.foldl (fun s l => l.teach (.free m.id long free) s) m.statistics = m.statistics :=
    foldl_teach sound.heard _ _
  unfold announce updateFree
  rw [if_pos sound.member, tell_eq]
  dsimp only
  rw [unmoved]
  split
  next tag told => simp [emit, told]
  next told => simp [told]

theorem Publishes.announce {m : Manager} (sound : m.Sound) (long : Bool) (free : UInt64) :
    Publishes m (m.announce long free) long free := by
  obtain ⟨before, known⟩ := sound.own_entry
  rw [announce_eq sound]
  refine ⟨⟨before, known, ?_⟩, fun p hp => ?_, rfl, rfl, rfl⟩
  · rw [CapacityTable.get?_updatePool, if_pos rfl, known, Option.getD_some]
  · rw [CapacityTable.get?_updatePool, if_neg hp]

theorem Publishes.quiet {m m' : Manager} {long : Bool} {free : UInt64} (h : Publishes m m' long free) :
    ∃ news, m'.outbox = m.outbox ++ news ∧ news.filter Effect.isDelta = [] := by
  refine ⟨_, h.outbox.trans (List.append_assoc _ _ _), List.filter_eq_nil_iff.mpr fun e he => ?_⟩
  rcases List.mem_append.mp he with he | he
  · obtain ⟨l, _, told⟩ := List.mem_filterMap.mp he
    obtain ⟨tag, _, rfl⟩ := Option.map_eq_some_iff.mp told
    exact Bool.false_ne_true
  · obtain ⟨tag, _, rfl⟩ := Option.map_eq_some_iff.mp (Option.mem_toList.mp he)
    exact Bool.false_ne_true

/-- The same manager later, which in between has counted one step of its own tally, and told of it while it
replicates. -/
structure Counts (m m' : Manager) (c : Counter) : Prop where
  own : ∀ d, m'.statistics.own.get d = m.statistics.own.get d + if d = c then 1 else 0
  outbox : m'.outbox = m.outbox ++ (m.channel.map (.delta · m.id c)).toList
  rest : { m' with statistics := { m'.statistics with own := m.statistics.own }, outbox := m.outbox } = m

theorem Counts.record {m : Manager} (wired : m.Wired) (c : Counter) : Counts m (m.record c) c := by
  have recorded : m.record c =
      { m with
        statistics := m.statistics.record c
        outbox := m.outbox ++ (m.channel.map (.delta · m.id c)).toList } := by
    have replicated : (m.statistics.record c).replicatesTo = m.channel := wired.replicatesTo
    unfold Manager.record
    dsimp only
    rw [replicated]
    cases m.channel with
    | none => simp
    | some tag => simp [emit]
  rw [recorded]
  refine ⟨fun d => ?_, rfl, rfl⟩
  show (m.statistics.own.bump c).get d = _
  rw [Tally.get_bump]
  split
  next => rfl
  next => rfl

/-- The same manager later, which in between has handed a work to the local executor: one free worker less was
published for its pool, then the executor got it. -/
def Admits (m m' : Manager) (free : Free) (mode : Mode) (work : Work) : Prop :=
  ∃ left m₁, left.toNat = (free.ofPool work.longRunning).toNat - 1 ∧
    Publishes m m₁ work.longRunning left ∧ m' = m₁.emit (.execute mode work)

theorem Admits.handOver {m : Manager} (sound : m.Sound) (free : Free) (mode : Mode) (work : Work) :
    Admits m (m.handOver free mode work) free mode work := by
  refine ⟨_, _, ?_, Publishes.announce sound work.longRunning _, rfl⟩
  generalize free.ofPool work.longRunning = workers
  split
  next none => rw [none]; rfl
  next some =>
    have one : (1 : UInt64) ≤ workers := by
      rw [UInt64.le_iff_toNat_le]
      have positive : workers.toNat ≠ 0 := fun h => some (UInt64.toNat_inj.mp h)
      exact Nat.one_le_iff_ne_zero.mpr positive
    exact UInt64.toNat_sub_of_le _ _ one

theorem Admits.submit {m : Manager} (sound : m.Sound) {free : Free} {mode : Mode} {work : Work}
    (stays : (m.submit free mode work).2 = .ok .execute) :
    ∃ asked, (∀ e ∈ asked, e.isQuestion) ∧
      Admits (m.saying asked) (m.submit free mode work).1 free mode work := by
  obtain ⟨asked, questions, routed, _⟩ := route_asks m work
  refine ⟨asked, questions, ?_⟩
  have still : (m.saying asked).Sound := sound.of_eq rfl rfl rfl rfl rfl rfl
  unfold Manager.submit at stays ⊢
  split at stays
  next => cases stays
  next m₁ heq =>
    rw [heq] at routed
    rw [← routed] at still ⊢
    exact handOver still free mode work
  next => cases stays

/-- The hook that goes along with a work: it counts the outcome and publishes what is free then in the pool of the
work. -/
def hook (m : Manager) (work : Work) (free : Free) (success : Bool) : Manager :=
  m.complete free work.longRunning success

theorem hook_counts {m : Manager} (sound : m.Sound) (wired : m.Wired) (work : Work) (free : Free) (success : Bool) :
    ∃ m₁, Counts m m₁ (if success then .workSuccessful else .workFailed) ∧
      Publishes m₁ (m.hook work free success) work.longRunning (free.ofPool work.longRunning) :=
  ⟨_, Counts.record wired _, Publishes.announce (sound.record _) _ _⟩

end Manager

end Workshare
