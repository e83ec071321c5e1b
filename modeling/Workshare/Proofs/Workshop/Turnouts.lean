import Workshare.Proofs.Workshop.Basic

namespace Workshare

/-- How a work ends whose handler has come so far. -/
def HandlerStage.verdict (g : Registry) (work : Work) : HandlerStage → Verdict
  | .fresh => g.verdict work
  | .asleep _ next => next.verdict
  | .held next => next.verdict

/-- What is heard of a handler when it goes on: that it starts, if there is one. -/
def HandlerStage.news (g : Registry) (n : NodeId) (work : Work) : HandlerStage → List Event
  | .fresh => (g.get? work.handler).toList.map fun h => .ran n h.title work
  | _ => []

/-- A task of a work that the pool of node `n` was handed. -/
inductive Task.Belongs (n : NodeId) (work : Work) : Task → Prop
  | submit (mode : Mode) : Belongs n work (.submit n mode work false)
  | queued (mode : Mode) (since deadline : Nat) :
      Belongs n work (.errand ⟨n, mode, work, .worker since deadline⟩ .caller)
  | awaiting (mode : Mode) (runner : Ticket) : Belongs n work (.errand ⟨n, mode, work, .finish runner⟩ .caller)
  | runner (waiter handler : Option Ticket) : Belongs n work (.runner n work waiter handler)
  | handler (runner : Ticket) (stage : HandlerStage) : Belongs n work (.handler n work (some runner) stage)

/-- A task that looks for a worker. -/
def Task.isSeeker : Task → Bool
  | .submit _ _ _ _ => true
  | .errand e _ => match e.wait with
    | .worker _ _ => true
    | _ => false
  | _ => false

/-- Whatever there is in a lane for anybody but `t` is still there, or better. -/
structure Lane.Passes (t : Ticket) (l l' : Lane) : Prop where
  waiting : ∀ v, v ≠ t → v ∈ l.waiting → v ∈ l'.waiting ∨ v ∈ l'.granted
  granted : ∀ v, v ≠ t → v ∈ l.granted → v ∈ l'.granted

namespace Lane

variable {t : Ticket} {l : Lane}

theorem Passes.refl (l : Lane) : l.Passes t l :=
  ⟨fun _ _ h => .inl h, fun _ _ h => h⟩

theorem Passes.trans {l' l'' : Lane} (h : l.Passes t l') (h' : l'.Passes t l'') : l.Passes t l'' := by
  refine ⟨fun v hv there => ?_, fun v hv there => h'.granted v hv (h.granted v hv there)⟩
  rcases h.waiting v hv there with there | there
  · exact h'.waiting v hv there
  · exact .inr (h'.granted v hv there)

theorem passes_ask {l' : Lane} {got : Bool} (asks : l.ask t = (l', got)) : l.Passes t l' := by
  unfold ask at asks
  split at asks
  next => cases asks; exact ⟨fun _ _ h => .inl h, fun _ _ h => h⟩
  next => cases asks; exact ⟨fun _ _ h => .inl (List.mem_append_left _ h), fun _ _ h => h⟩

theorem passes_collect {l' : Lane} {got : Bool} (collects : l.collect t = (l', got)) : l.Passes t l' := by
  unfold collect at collects
  split at collects
  next => cases collects; exact ⟨fun _ _ h => .inl h, fun _ hv h => (List.mem_erase_of_ne hv).mpr h⟩
  next => cases collects; exact .refl l

theorem passes_giveBack : l.Passes t l.giveBack.1 := by
  unfold giveBack
  split
  next u rest hl =>
    refine ⟨fun v _ h => ?_, fun _ _ h => List.mem_append_left _ h⟩
    rw [hl] at h
    rcases List.mem_cons.mp h with rfl | h
    · exact .inr (List.mem_append_right _ (List.mem_singleton_self _))
    · exact .inl h
  next => exact ⟨fun _ _ h => .inl h, fun _ _ h => h⟩

theorem passes_quit : l.Passes t (l.quit t).1 := by
  unfold quit
  split
  next =>
    have erased : l.Passes t { l with granted := l.granted.erase t } :=
      ⟨fun _ _ h => .inl h, fun _ hv h => (List.mem_erase_of_ne hv).mpr h⟩
    exact erased.trans passes_giveBack
  next => exact ⟨fun _ hv h => .inl ((List.mem_erase_of_ne hv).mpr h), fun _ _ h => h⟩

theorem waits_of_ask {l' : Lane} (asks : l.ask t = (l', false)) : t ∈ l'.waiting := by
  unfold ask at asks
  split at asks
  next => cases asks
  next =>
    cases asks
    exact List.mem_append_right _ (List.mem_singleton_self t)

theorem waits_of_collect {l' : Lane} (collects : l.collect t = (l', false)) (line : t ∈ l.waiting ∨ t ∈ l.granted) :
    t ∈ l'.waiting := by
  unfold collect at collects
  split at collects
  next => cases collects
  next ungranted =>
    cases collects
    exact line.resolve_right ungranted

end Lane

namespace Pool

theorem setLane_setLane (p : Pool) (long : Bool) (l l' : Lane) :
    (p.setLane long l).setLane long l' = p.setLane long l' := by
  cases long <;> rfl

@[simp] theorem lane_setLane_self (p : Pool) (long : Bool) (l : Lane) : (p.setLane long l).lane long = l := by
  rw [lane_setLane, if_pos rfl]

@[simp] theorem startTimeout_setLane (p : Pool) (long : Bool) (l : Lane) :
    (p.setLane long l).startTimeout = p.startTimeout := by
  cases long <;> rfl

end Pool

/-- What a go brings about: the pool afterwards, whom the task has begun, the verdicts that are left, what is heard of
works, what is left of the task, and what its caller is told. -/
structure Yield where
  pool : Pool
  child : Option Task
  verdicts : Table Ticket Verdict
  news : List Event
  left : Option Task
  said : Option Answer

namespace Cluster

/-- Node `n` has this pool and knows nobody else. -/
def Lone (n : NodeId) (p : Pool) (c : Cluster) : Prop :=
  ∃ manager book limit, c.host? n = some ⟨.pool p, manager, book, limit⟩ ∧ book.peerAddresses = []

section Turnouts

variable (n : NodeId) (p : Pool) (t : Ticket) (c : Cluster)

/-- A task that looks for a worker of the lane of its work and gets one. -/
inductive Gets : Task → Mode → Work → Lane → Prop
  | asked {mode : Mode} {work : Work} {l : Lane} : (p.lane work.longRunning).ask t = (l, true) →
      Gets (.submit n mode work false) mode work l
  | collected {mode : Mode} {work : Work} {since deadline : Nat} {l : Lane} :
      (p.lane work.longRunning).collect t = (l, true) →
      Gets (.errand ⟨n, mode, work, .worker since deadline⟩ .caller) mode work l

/-- A task that looks for a worker in vain, with the instant of its asking and its deadline. -/
inductive Misses : Task → Mode → Work → Nat → Nat → Lane → Prop
  | asked {mode : Mode} {work : Work} {l : Lane} : (p.lane work.longRunning).ask t = (l, false) →
      Misses (.submit n mode work false) mode work c.now (c.now + p.startTimeout.millis) l
  | collected {mode : Mode} {work : Work} {since deadline : Nat} {l : Lane} :
      (p.lane work.longRunning).collect t = (l, false) →
      Misses (.errand ⟨n, mode, work, .worker since deadline⟩ .caller) mode work since deadline l

/-- What comes of a go at a task that looks for a worker. -/
inductive Seeks : Task → Yield → Prop
  | hired {task : Task} {work : Work} {l : Lane} : Gets n p t task .run work l →
      Seeks task ⟨p.setLane work.longRunning l, some (.runner n work (some t) none), c.verdicts, [],
        some (.errand ⟨n, .run, work, .finish c.fresh⟩ .caller), none⟩
  | begun {task : Task} {mode : Mode} {work : Work} {l : Lane} {delay : Option UInt64} :
      Gets n p t task mode work l → mode ≠ .run → (delay.isSome ↔ mode = .start) →
      Seeks task ⟨p.setLane work.longRunning l, some (.runner n work none none), c.verdicts,
        [.answered n mode (.ok delay)], none, some (.outcome (.ok (.ok delay)))⟩
  | queued {task : Task} {mode : Mode} {work : Work} {since deadline : Nat} {l : Lane} :
      Misses n p t c task mode work since deadline l →
      Seeks task ⟨p.setLane work.longRunning l, none, c.verdicts, [],
        some (.errand ⟨n, mode, work, .worker since deadline⟩ .caller), none⟩
  | rejected {task : Task} {mode : Mode} {work : Work} {since deadline : Nat} {l : Lane} :
      Misses n p t c task mode work since deadline l → deadline ≤ c.now →
      Seeks task ⟨p.setLane work.longRunning (l.quit t).1, none, c.verdicts,
        [.answered n mode (.error (.rejected (p.noWorker work.longRunning)))], none,
        some (.outcome (.ok (.error (.rejected (p.noWorker work.longRunning)))))⟩

/-- All that may come of a go at task `t`; what the manager of the node hears and says meanwhile is left out of
account. -/
inductive Turnout : Task → Yield → Prop
  | seeks {task : Task} {y : Yield} : Seeks n p t c task y → Turnout task y
  | awaits {mode : Mode} {work : Work} {r : Ticket} : c.verdicts.get? r = none →
      Turnout (.errand ⟨n, mode, work, .finish r⟩ .caller)
        ⟨p, none, c.verdicts, [], some (.errand ⟨n, mode, work, .finish r⟩ .caller), none⟩
  | answered {mode : Mode} {work : Work} {r : Ticket} {verdict : Verdict} : c.verdicts.get? r = some verdict →
      Turnout (.errand ⟨n, mode, work, .finish r⟩ .caller)
        ⟨p, none, c.verdicts.erase r, [.answered n mode verdict.outcome], none, some (.outcome (.ok verdict.outcome))⟩
  | manned {work : Work} {waiter : Option Ticket} : Turnout (.runner n work waiter none)
      ⟨p, some (.handler n work (some t) .fresh), c.verdicts, [], some (.runner n work waiter (some c.fresh)), none⟩
  | attends {work : Work} {waiter : Option Ticket} {h : Ticket} : c.verdicts.get? h = none →
      Turnout (.runner n work waiter (some h))
        ⟨p, none, c.verdicts, [], some (.runner n work waiter (some h)), none⟩
  | retired {work : Work} {waiter : Option Ticket} {h : Ticket} {verdict : Verdict} :
      c.verdicts.get? h = some verdict →
      Turnout (.runner n work waiter (some h))
        ⟨p.setLane work.longRunning (p.lane work.longRunning).giveBack.1, none,
          waiter.elim (c.verdicts.erase h) fun _ => (c.verdicts.erase h).insert t verdict,
          [.completed n work verdict.isOk], none, none⟩
  | goes {work : Work} {r : Ticket} {stage stage' : HandlerStage} :
      (∀ g, stage'.verdict g work = stage.verdict p.handlers work) → stage' ≠ .fresh →
      Turnout (.handler n work (some r) stage) ⟨p, none, c.verdicts, stage.news p.handlers n work,
        some (.handler n work (some r) stage'), none⟩
  | ended {work : Work} {r : Ticket} {stage : HandlerStage} :
      Turnout (.handler n work (some r) stage) ⟨p, none, c.verdicts.insert t (stage.verdict p.handlers work),
        stage.news p.handlers n work, none, none⟩

end Turnouts

/-- Task `t` has gone on, and this has come of it. -/
structure Yields (n : NodeId) (t : Ticket) (c c' : Cluster) (y : Yield) : Prop where
  lone : c'.Lone n y.pool
  now : c'.now = c.now
  fresh : c'.fresh = y.child.elim c.fresh fun _ => c.fresh + 1
  task : ∀ v, c'.tasks.get? v =
    if v = t then y.left else if v = c.fresh then y.child.or (c.tasks.get? v) else c.tasks.get? v
  verdicts : c'.verdicts = y.verdicts
  answers : c'.answers = c.answers ++ (y.said.map (t, ·)).toList
  events : ∃ news, c'.events = c.events ++ news ∧ news.filter (¬ ·.isEffect) = y.news

/-- What has been done so far in a go. -/
structure Stint where
  pool : Pool
  child : Option Task
  verdicts : Table Ticket Verdict
  news : List Event

/-- A go has come so far. -/
structure Comes (n : NodeId) (c c' : Cluster) (x : Stint) : Prop where
  lone : c'.Lone n x.pool
  now : c'.now = c.now
  fresh : c'.fresh = x.child.elim c.fresh fun _ => c.fresh + 1
  tasks : c'.tasks = x.child.elim c.tasks (c.tasks.insert c.fresh)
  verdicts : c'.verdicts = x.verdicts
  answers : c'.answers = c.answers
  events : ∃ news, c'.events = c.events ++ news ∧ news.filter (¬ ·.isEffect) = x.news

/-- Nothing of the works has changed. -/
structure Rests (n : NodeId) (c c' : Cluster) : Prop where
  lone : ∀ p, c.Lone n p → c'.Lone n p
  now : c'.now = c.now
  fresh : c'.fresh = c.fresh
  tasks : c'.tasks = c.tasks
  verdicts : c'.verdicts = c.verdicts
  answers : c'.answers = c.answers
  events : ∃ news, c'.events = c.events ++ news ∧ news.filter (¬ ·.isEffect) = []

variable {n : NodeId} {p : Pool} {t : Ticket} {c c' c'' : Cluster} {x : Stint}

theorem Seeks.isSeeker {task : Task} {y : Yield} (seeks : Seeks n p t c task y) : task.isSeeker := by
  cases seeks with
  | hired gets => cases gets <;> rfl
  | begun gets _ _ => cases gets <;> rfl
  | queued misses => cases misses <;> rfl
  | rejected misses _ => cases misses <;> rfl

namespace Rests

theorem of_eq (hosts : c'.hosts = c.hosts) (now : c'.now = c.now) (fresh : c'.fresh = c.fresh)
    (tasks : c'.tasks = c.tasks) (verdicts : c'.verdicts = c.verdicts) (answers : c'.answers = c.answers)
    (events : c'.events = c.events) : Rests n c c' := by
  refine ⟨?_, now, fresh, tasks, verdicts, answers, [], by rw [events, List.append_nil], rfl⟩
  intro p lone
  unfold Lone at lone ⊢
  rwa [host?_congr hosts]

theorem refl (c : Cluster) : Rests n c c :=
  of_eq rfl rfl rfl rfl rfl rfl rfl

theorem trans (h : Rests n c c') (h' : Rests n c' c'') : Rests n c c'' := by
  obtain ⟨news, he, silent⟩ := h.events
  obtain ⟨more, he', silent'⟩ := h'.events
  refine ⟨fun p lone => h'.lone p (h.lone p lone), h'.now.trans h.now, h'.fresh.trans h.fresh, h'.tasks.trans h.tasks,
    h'.verdicts.trans h.verdicts, h'.answers.trans h.answers, news ++ more, ?_, ?_⟩
  · rw [he', he, List.append_assoc]
  · rw [List.filter_append, silent, silent', List.append_nil]

theorem wakeAll (c : Cluster) (vs : List Ticket) : Rests n c (c.wakeAll vs) := by
  obtain ⟨_, _, e⟩ := c.wakeAll_eq vs
  rw [e]
  exact of_eq rfl rfl rfl rfl rfl rfl rfl

theorem wake (c : Cluster) (v : Ticket) : Rests n c (c.wake v) :=
  wakeAll c [v]

theorem setTimer (c : Cluster) (v : Ticket) (alarm : Alarm) (instant : Nat) : Rests n c (c.setTimer v alarm instant) :=
  of_eq rfl rfl rfl rfl rfl rfl rfl

theorem cancel (c : Cluster) (v : Ticket) (alarm : Alarm) : Rests n c (c.cancel v alarm) :=
  of_eq rfl rfl rfl rfl rfl rfl rfl

theorem signals (c : Cluster) (gate : Lane) : Rests n c { c with gate := gate } :=
  of_eq rfl rfl rfl rfl rfl rfl rfl

theorem release (c : Cluster) (count : Nat) : Rests n c (c.release count) :=
  (signals c _).trans (wakeAll _ _)

theorem broadcast (lone : c.Lone n p) (request : Request String) : c.broadcast n request = c := by
  obtain ⟨manager, book, limit, host, alone⟩ := lone
  unfold Cluster.broadcast
  simp only [host, alone, List.isEmpty_nil, if_true]

theorem perform (lone : c.Lone n p) (e : Effect) : Rests n c (perform n c e) ∧ (Cluster.perform n c e).Lone n p := by
  have recorded : Rests n c (c.record (.effect n e)) :=
    ⟨fun _ h => h, rfl, rfl, rfl, rfl, rfl, [.effect n e], rfl, rfl⟩
  unfold Cluster.perform
  dsimp only
  split
  next request _ =>
    rw [broadcast (c := c.record (.effect n e)) (recorded.lone p lone)]
    exact ⟨recorded, recorded.lone p lone⟩
  next => exact ⟨recorded, recorded.lone p lone⟩

theorem performAll (lone : c.Lone n p) (effects : List Effect) : Rests n c (effects.foldl (Cluster.perform n) c) := by
  induction effects generalizing c with
  | nil => exact refl c
  | cons e effects ih =>
    obtain ⟨performed, lone⟩ := perform lone e
    exact performed.trans (ih lone)

theorem tell (lone : c.Lone n p) (act : Manager → Manager) : Rests n c (c.tell n act) := by
  obtain ⟨manager, book, limit, host, alone⟩ := lone
  cases manager with
  | none =>
    have absent : c.manager? n = none := by
      unfold manager?
      rw [host]
      rfl
    rw [tell_absent absent]
    exact refl c
  | some m =>
    rw [tell_eq host rfl]
    have stood : Rests n c (c.setHost n ⟨.pool p, some (act m).drain.2, book, limit⟩) := by
      refine ⟨?_, rfl, rfl, rfl, rfl, rfl, [], (List.append_nil _).symm, rfl⟩
      rintro q ⟨manager, book', limit', host', _⟩
      rw [host] at host'
      cases host'
      exact ⟨some (act m).drain.2, book, limit, (host?_setHost _ _).trans (if_pos rfl), alone⟩
    exact stood.trans (performAll (stood.lone p ⟨some m, book, limit, host, alone⟩) _)

end Rests

namespace Comes

theorem start (lone : c.Lone n p) : Comes n c c ⟨p, none, c.verdicts, []⟩ :=
  ⟨lone, rfl, rfl, rfl, rfl, rfl, [], (List.append_nil _).symm, rfl⟩

theorem rest (h : Comes n c c' x) (rests : Rests n c' c'') : Comes n c c'' x := by
  obtain ⟨news, he, heard⟩ := h.events
  obtain ⟨more, he', silent⟩ := rests.events
  refine ⟨rests.lone _ h.lone, rests.now.trans h.now, rests.fresh.trans h.fresh, rests.tasks.trans h.tasks,
    rests.verdicts.trans h.verdicts, rests.answers.trans h.answers, news ++ more, ?_, ?_⟩
  · rw [he', he, List.append_assoc]
  · rw [List.filter_append, heard, silent, List.append_nil]

theorem withLane {α : Type} (h : Comes n c c' x) (long : Bool) (f : Lane → Lane × α) :
    Comes n c (c'.withLane n long f).1 { x with pool := x.pool.setLane long (f (x.pool.lane long)).1 } ∧
      (c'.withLane n long f).2 = some (f (x.pool.lane long)).2 := by
  obtain ⟨manager, book, limit, host, alone⟩ := h.lone
  unfold Cluster.withLane
  rw [host]
  refine ⟨⟨⟨manager, book, limit, ?_, alone⟩, h.now, h.fresh, h.tasks, h.verdicts, h.answers, h.events⟩, rfl⟩
  exact (host?_setHost _ _).trans (if_pos rfl)

theorem spawn (h : Comes n c c' x) (first : x.child = none) (task : Task) :
    Comes n c (c'.spawn task).1 { x with child := some task } ∧ (c'.spawn task).2 = c.fresh := by
  have fresh : c'.fresh = c.fresh := by rw [h.fresh, first]; rfl
  have tasks : c'.tasks = c.tasks := by rw [h.tasks, first]; rfl
  refine ⟨⟨h.lone, h.now, ?_, ?_, h.verdicts, h.answers, h.events⟩, fresh⟩
  · show c'.fresh + 1 = c.fresh + 1
    rw [fresh]
  · show c'.tasks.insert c'.fresh task = c.tasks.insert c.fresh task
    rw [fresh, tasks]

theorem record (h : Comes n c c' x) {e : Event} (loud : e.isEffect = false) :
    Comes n c (c'.record e) { x with news := x.news ++ [e] } := by
  obtain ⟨news, he, heard⟩ := h.events
  refine ⟨h.lone, h.now, h.fresh, h.tasks, h.verdicts, h.answers, news ++ [e], ?_, ?_⟩
  · show c'.events ++ [e] = _
    rw [he, List.append_assoc]
  · rw [List.filter_append, heard]
    simp [loud]

theorem post (h : Comes n c c' x) (verdicts : Table Ticket Verdict) :
    Comes n c { c' with verdicts := verdicts } { x with verdicts := verdicts } :=
  ⟨h.lone, h.now, h.fresh, h.tasks, rfl, h.answers, h.events⟩

theorem get?_tasks (h : Comes n c c' x) (v : Ticket) :
    c'.tasks.get? v = if v = c.fresh then x.child.or (c.tasks.get? v) else c.tasks.get? v := by
  rw [h.tasks]
  cases x.child with
  | none =>
    split
    next => rfl
    next => rfl
  | some task => exact Table.get?_insert _ _ _ _

theorem park (h : Comes n c c' x) (t : Ticket) (left : Task) :
    Yields n t c (c'.park t left) ⟨x.pool, x.child, x.verdicts, x.news, some left, none⟩ := by
  refine ⟨h.lone, h.now, h.fresh, fun v => ?_, h.verdicts, ?_, h.events⟩
  · rw [← h.get?_tasks]
    exact Table.get?_insert _ _ _ _
  · exact h.answers.trans (List.append_nil _).symm

theorem finish (h : Comes n c c' x) (t : Ticket) (said : Option Answer) :
    Yields n t c (c'.finish t said) ⟨x.pool, x.child, x.verdicts, x.news, none, said⟩ := by
  refine ⟨h.lone, h.now, h.fresh, fun v => ?_, h.verdicts, ?_, h.events⟩
  · rw [← h.get?_tasks]
    exact Table.get?_erase _ _ _
  · show c'.answers ++ _ = _
    rw [h.answers]

end Comes

theorem Yields.rest {y : Yield} (h : Yields n t c c' y) (rests : Rests n c' c'') : Yields n t c c'' y := by
  obtain ⟨news, he, heard⟩ := h.events
  obtain ⟨more, he', silent⟩ := rests.events
  refine ⟨rests.lone _ h.lone, rests.now.trans h.now, rests.fresh.trans h.fresh, fun v => ?_,
    rests.verdicts.trans h.verdicts, rests.answers.trans h.answers, news ++ more, ?_, ?_⟩
  · rw [rests.tasks]
    exact h.task v
  · rw [he', he, List.append_assoc]
  · rw [List.filter_append, heard, silent, List.append_nil]

theorem Lone.executor? (lone : c.Lone n p) : c.executor? n = some (.pool p) := by
  obtain ⟨manager, book, limit, host, _⟩ := lone
  unfold Cluster.executor?
  rw [host]
  rfl

theorem Lone.lane (lone : c.Lone n p) (long : Bool) : c.lane n long = p.lane long := by
  unfold Cluster.lane
  rw [lone.executor?]

namespace Comes

/-- At its end a task leaves its verdict for the one that waits for it. -/
theorem report (h : Comes n c c' x) (t r : Ticket) (verdict : Verdict) :
    Yields n t c (({ c' with verdicts := c'.verdicts.insert t verdict }.finish t none).wake r)
      ⟨x.pool, x.child, x.verdicts.insert t verdict, x.news, none, none⟩ := by
  rw [← h.verdicts]
  exact ((h.post (c'.verdicts.insert t verdict)).finish t none).rest (.wake _ r)

theorem settle (h : Comes n c c' x) (t : Ticket) (mode : Mode) (work : Work) (wait : Wait) (outcome : Outcome) :
    Yields n t c
      ((c'.settle ⟨n, mode, work, wait⟩ outcome).1.carryOn t .caller (c'.settle ⟨n, mode, work, wait⟩ outcome).2)
      ⟨x.pool, x.child, x.verdicts, x.news ++ [.answered n mode outcome], none, some (.outcome (.ok outcome))⟩ := by
  have recorded := h.record (e := .answered n mode outcome) rfl
  exact (recorded.rest (.tell recorded.lone _)).finish t _

theorem complete (h : Comes n c c' x) (work : Work) (success : Bool) :
    Comes n c (c'.complete n work success) { x with news := x.news ++ [.completed n work success] } := by
  have recorded := h.record (e := .completed n work success) rfl
  exact recorded.rest (.tell recorded.lone _)

end Comes

theorem seeks_begin {task : Task} {mode : Mode} {work : Work} {l : Lane} (gets : Gets n p t task mode work l)
    (h : Comes n c c' ⟨p.setLane work.longRunning l, none, c.verdicts, []⟩) (wait : Wait) (since : Nat) :
    ∃ y, Seeks n p t c task y ∧ Yields n t c
      ((c'.begin t ⟨n, mode, work, wait⟩ since).1.carryOn t .caller (c'.begin t ⟨n, mode, work, wait⟩ since).2) y := by
  have sent : ∀ waiter, Comes n c (c'.spawn (.runner n work waiter none)).1
      ⟨p.setLane work.longRunning l, some (.runner n work waiter none), c.verdicts, []⟩ :=
    fun waiter => (h.spawn rfl _).1
  cases mode with
  | run =>
    have first : (c'.spawn (.runner n work (some t) none)).2 = c.fresh := (h.spawn rfl _).2
    refine ⟨_, .hired gets, ?_⟩
    rw [← first]
    exact (sent (some t)).park t (.errand ⟨n, .run, work, .finish c'.fresh⟩ .caller)
  | start => exact ⟨_, .begun gets nofun (by simp), (sent none).settle t .start work wait _⟩
  | schedule => exact ⟨_, .begun gets nofun (by simp), (sent none).settle t .schedule work wait (.ok none)⟩

theorem seeks_reject {task : Task} {mode : Mode} {work : Work} {since deadline : Nat} {l : Lane}
    (misses : Misses n p t c task mode work since deadline l) (late : deadline ≤ c.now)
    (h : Comes n c c' ⟨p.setLane work.longRunning l, none, c.verdicts, []⟩) (wait : Wait) :
    ∃ y, Seeks n p t c task y ∧ Yields n t c
      ((c'.reject t ⟨n, mode, work, wait⟩ p).1.carryOn t .caller (c'.reject t ⟨n, mode, work, wait⟩ p).2) y := by
  have quit := (h.withLane work.longRunning (·.quit t)).1
  dsimp only at quit
  rw [Pool.setLane_setLane, Pool.lane_setLane_self] at quit
  exact ⟨_, .rejected misses late, (quit.rest (.wakeAll _ _)).settle t mode work wait _⟩

theorem seeks_submit (lone : c.Lone n p) (mode : Mode) (work : Work) :
    ∃ y, Seeks n p t c (.submit n mode work false) y ∧ Yields n t c (c.resume t (.submit n mode work false)) y := by
  have told := (Comes.start lone).rest (.tell lone (·.handOver (c.free n) mode work))
  rw [resume]
  unfold submitHere
  dsimp only
  revert told
  generalize c.tell n (·.handOver (c.free n) mode work) = c₁
  intro told
  have now : c₁.now = c.now := told.now
  obtain ⟨asked, answer⟩ := told.withLane work.longRunning (·.ask t)
  unfold execute
  simp only [told.lone.executor?]
  revert asked answer
  generalize c₁.withLane n work.longRunning (·.ask t) = r
  obtain ⟨c₂, a⟩ := r
  rintro asked rfl
  dsimp only at asked ⊢
  cases got : ((p.lane work.longRunning).ask t).2 with
  | true => exact seeks_begin (.asked (Prod.ext rfl got)) asked _ _
  | false =>
    have misses : Misses n p t c (.submit n mode work false) mode work c.now (c.now + p.startTimeout.millis) _ :=
      .asked (Prod.ext rfl got)
    have later : c₂.now = c.now := asked.now
    simp only [now, later]
    split
    next late => exact seeks_reject misses late asked _
    next =>
      have timed := asked.rest (.setTimer c₂ t .stage (c.now + p.startTimeout.millis))
      exact ⟨_, .queued misses, timed.park t (.errand ⟨n, mode, work, .worker c.now _⟩ .caller)⟩

theorem seeks_queued (lone : c.Lone n p) (mode : Mode) (work : Work) (since deadline : Nat) :
    ∃ y, Seeks n p t c (.errand ⟨n, mode, work, .worker since deadline⟩ .caller) y ∧
      Yields n t c (c.resume t (.errand ⟨n, mode, work, .worker since deadline⟩ .caller)) y := by
  obtain ⟨collected, answer⟩ := (Comes.start lone).withLane work.longRunning (·.collect t)
  rw [resume]
  unfold pollErrand
  simp only [lone.executor?]
  revert collected answer
  generalize c.withLane n work.longRunning (·.collect t) = r
  obtain ⟨c₁, a⟩ := r
  rintro collected rfl
  dsimp only at collected ⊢
  cases got : ((p.lane work.longRunning).collect t).2 with
  | true =>
    have cancelled := collected.rest (.cancel c₁ t .stage)
    exact seeks_begin (.collected (Prod.ext rfl got)) cancelled _ _
  | false =>
    have misses : Misses n p t c (.errand ⟨n, mode, work, .worker since deadline⟩ .caller) mode work since deadline _ :=
      .collected (Prod.ext rfl got)
    have now : c₁.now = c.now := collected.now
    simp only [now]
    split
    next late => exact seeks_reject misses late collected _
    next => exact ⟨_, .queued misses, collected.park t (.errand ⟨n, mode, work, .worker since deadline⟩ .caller)⟩

theorem turnout_awaiting (lone : c.Lone n p) (mode : Mode) (work : Work) (r : Ticket) :
    ∃ y, Turnout n p t c (.errand ⟨n, mode, work, .finish r⟩ .caller) y ∧
      Yields n t c (c.resume t (.errand ⟨n, mode, work, .finish r⟩ .caller)) y := by
  have start := Comes.start lone
  rw [resume]
  simp only [pollErrand]
  cases left : c.verdicts.get? r with
  | none => exact ⟨_, .awaits left, start.park t _⟩
  | some verdict =>
    have settled := (start.post (c.verdicts.erase r)).settle t mode work (.finish r) verdict.outcome
    refine ⟨_, .answered left, ?_⟩
    cases verdict with
    | ok u => exact settled
    | error fault => exact settled

theorem turnout_runner (lone : c.Lone n p) (work : Work) (waiter handler : Option Ticket) :
    ∃ y, Turnout n p t c (.runner n work waiter handler) y ∧
      Yields n t c (c.resume t (.runner n work waiter handler)) y := by
  have start := Comes.start lone
  rw [resume]
  cases handler with
  | none => exact ⟨_, .manned, (start.spawn rfl (.handler n work (some t) .fresh)).1.park t _⟩
  | some h =>
    rw [pollRunner]
    cases left : c.verdicts.get? h with
    | none => exact ⟨_, .attends left, start.park t _⟩
    | some verdict =>
      refine ⟨_, .retired left, ?_⟩
      have back := ((start.post (c.verdicts.erase h)).withLane work.longRunning Lane.giveBack).1
      unfold retire
      dsimp only
      revert back
      generalize Cluster.withLane { c with verdicts := c.verdicts.erase h } n work.longRunning Lane.giveBack = r
      obtain ⟨c₁, next⟩ := r
      intro back
      have reported := (back.rest (.wakeAll _ (next.bind id).toList)).complete work verdict.isOk
      cases verdict with
      | ok done =>
        cases waiter with
        | none => exact reported.finish t none
        | some w => exact reported.report t w (.ok done)
      | error fault =>
        cases waiter with
        | none => exact reported.finish t none
        | some w => exact reported.report t w (.error fault)

/-- A handler that ends with this verdict has come on. -/
inductive Heads (verdict : Verdict) : Progress HandlerStage Verdict → Prop
  | waits {stage : HandlerStage} : stage ≠ .fresh → (∀ g work, stage.verdict g work = verdict) →
      Heads verdict (.waits stage)
  | ends : Heads verdict (.ends verdict)

theorem Heads.asleep (wake : Nat) (next : Behaviour) : Heads next.verdict (.waits (.asleep wake next)) := by
  refine .waits (fun fresh => ?_) fun _ _ => rfl
  cases fresh

theorem Heads.held (next : Behaviour) : Heads next.verdict (.waits (.held next)) := by
  refine .waits (fun fresh => ?_) fun _ _ => rfl
  cases fresh

theorem heads_follow (n : NodeId) (c : Cluster) (t : Ticket) (b : Behaviour) :
    Rests n c (c.follow t b).1 ∧ Heads b.verdict (c.follow t b).2 := by
  induction b generalizing c with
  | ends verdict => exact ⟨.refl c, .ends⟩
  | sleeps millis next ih =>
    unfold follow
    split
    next => exact ih c
    next => exact ⟨.of_eq rfl rfl rfl rfl rfl rfl rfl, .asleep _ next⟩
  | waits next ih =>
    unfold follow
    split
    next gate _ =>
      obtain ⟨rests, heads⟩ := ih { c with gate := gate }
      exact ⟨(Rests.signals c gate).trans rests, heads⟩
    next => exact ⟨.of_eq rfl rfl rfl rfl rfl rfl rfl, .held next⟩

theorem Lone.handlers (lone : c.Lone n p) : c.handlers n = p.handlers := by
  unfold Cluster.handlers
  rw [lone.executor?]

theorem heads_pollHandler (lone : c.Lone n p) (t : Ticket) (work : Work) (stage : HandlerStage) :
    Comes n c (c.pollHandler t n work stage).1 ⟨p, none, c.verdicts, stage.news p.handlers n work⟩ ∧
      Heads (stage.verdict p.handlers work) (c.pollHandler t n work stage).2 := by
  have start := Comes.start lone
  cases stage with
  | fresh =>
    rw [pollHandler, lone.handlers]
    unfold HandlerStage.news HandlerStage.verdict Registry.verdict
    cases p.handlers.get? work.handler with
    | none => exact ⟨start, .ends⟩
    | some h =>
      have ran := start.record (e := .ran n h.title work) rfl
      obtain ⟨rests, heads⟩ := heads_follow n (c.record (.ran n h.title work)) t (h.act work)
      exact ⟨ran.rest rests, heads⟩
  | asleep wake next =>
    rw [pollHandler]
    split
    next =>
      obtain ⟨rests, heads⟩ := heads_follow n c t next
      exact ⟨start.rest rests, heads⟩
    next => exact ⟨start, .asleep wake next⟩
  | held next =>
    rw [pollHandler]
    split
    next gate _ =>
      obtain ⟨rests, heads⟩ := heads_follow n { c with gate := gate } t next
      exact ⟨start.rest ((Rests.signals c gate).trans rests), heads⟩
    next => exact ⟨start, .held next⟩

theorem turnout_handler (lone : c.Lone n p) (work : Work) (r : Ticket) (stage : HandlerStage) :
    ∃ y, Turnout n p t c (.handler n work (some r) stage) y ∧
      Yields n t c (c.resume t (.handler n work (some r) stage)) y := by
  obtain ⟨comes, heads⟩ := heads_pollHandler lone t work stage
  rw [resume]
  revert comes heads
  generalize c.pollHandler t n work stage = r
  obtain ⟨c₁, progress⟩ := r
  intro comes heads
  dsimp only at comes heads ⊢
  cases heads with
  | waits begun verdict => exact ⟨_, .goes (verdict · work) begun, comes.park t _⟩
  | ends => exact ⟨_, .ended, comes.report t r _⟩

/-- Every go at a task of a pool is one of these. -/
theorem turnout_resume (lone : c.Lone n p) {work : Work} {task : Task} (belongs : task.Belongs n work) :
    ∃ y, Turnout n p t c task y ∧ Yields n t c (c.resume t task) y := by
  cases belongs with
  | submit mode =>
    obtain ⟨y, seeks, yields⟩ := seeks_submit lone mode work
    exact ⟨y, .seeks seeks, yields⟩
  | queued mode since deadline =>
    obtain ⟨y, seeks, yields⟩ := seeks_queued lone mode work since deadline
    exact ⟨y, .seeks seeks, yields⟩
  | awaiting mode r => exact turnout_awaiting lone mode work r
  | runner waiter handler => exact turnout_runner lone work waiter handler
  | handler r stage => exact turnout_handler lone work r stage

/-- A task that looks for a worker asks for one or collects one, whether it gets it or not. -/
theorem lane_of_looks {task : Task} (mode : Mode) {work work' : Work} {l : Lane} (got : Bool)
    (looks : task = .submit n mode work' false ∧ (p.lane work'.longRunning).ask t = (l, got) ∨
      ∃ since deadline, task = .errand ⟨n, mode, work', .worker since deadline⟩ .caller ∧
        (p.lane work'.longRunning).collect t = (l, got))
    (belongs : task.Belongs n work) : work' = work ∧ (p.lane work.longRunning).Passes t l := by
  rcases looks with ⟨rfl, asks⟩ | ⟨since, deadline, rfl, collects⟩
  · cases belongs with
    | submit => exact ⟨rfl, Lane.passes_ask asks⟩
  · cases belongs with
    | queued => exact ⟨rfl, Lane.passes_collect collects⟩

theorem Gets.lane {task : Task} {mode : Mode} {work work' : Work} {l : Lane} (gets : Gets n p t task mode work' l)
    (belongs : task.Belongs n work) : work' = work ∧ (p.lane work.longRunning).Passes t l := by
  refine lane_of_looks mode true ?_ belongs
  cases gets with
  | asked asks => exact .inl ⟨rfl, asks⟩
  | collected collects => exact .inr ⟨_, _, rfl, collects⟩

theorem Misses.lane {task : Task} {mode : Mode} {work work' : Work} {since deadline : Nat} {l : Lane}
    (misses : Misses n p t c task mode work' since deadline l) (belongs : task.Belongs n work) :
    work' = work ∧ (p.lane work.longRunning).Passes t l := by
  refine lane_of_looks mode false ?_ belongs
  cases misses with
  | asked asks => exact .inl ⟨rfl, asks⟩
  | collected collects => exact .inr ⟨_, _, rfl, collects⟩

/-- A go changes no lane but that of its work, and there takes nothing from the others. -/
theorem Turnout.pool {task : Task} {work : Work} {y : Yield} (turnout : Turnout n p t c task y)
    (belongs : task.Belongs n work) :
    y.pool = p ∨ ∃ l, y.pool = p.setLane work.longRunning l ∧ (p.lane work.longRunning).Passes t l := by
  cases turnout with
  | seeks seeks =>
    cases seeks with
    | hired gets =>
      obtain ⟨rfl, passes⟩ := gets.lane belongs
      exact .inr ⟨_, rfl, passes⟩
    | begun gets _ _ =>
      obtain ⟨rfl, passes⟩ := gets.lane belongs
      exact .inr ⟨_, rfl, passes⟩
    | queued misses =>
      obtain ⟨rfl, passes⟩ := misses.lane belongs
      exact .inr ⟨_, rfl, passes⟩
    | rejected misses _ =>
      obtain ⟨rfl, passes⟩ := misses.lane belongs
      exact .inr ⟨_, rfl, passes.trans Lane.passes_quit⟩
  | retired _ =>
    cases belongs with
    | runner => exact .inr ⟨_, rfl, Lane.passes_giveBack⟩
  | awaits _ => exact .inl rfl
  | answered _ => exact .inl rfl
  | manned => exact .inl rfl
  | attends _ => exact .inl rfl
  | goes _ _ => exact .inl rfl
  | ended => exact .inl rfl

theorem Turnout.startTimeout {task : Task} {work : Work} {y : Yield} (turnout : Turnout n p t c task y)
    (belongs : task.Belongs n work) : y.pool.startTimeout = p.startTimeout := by
  rcases turnout.pool belongs with same | ⟨l, changed, _⟩
  · rw [same]
  · rw [changed, Pool.startTimeout_setLane]

theorem Turnout.passes {task : Task} {work : Work} {y : Yield} (turnout : Turnout n p t c task y)
    (belongs : task.Belongs n work) (long : Bool) : (p.lane long).Passes t (y.pool.lane long) := by
  rcases turnout.pool belongs with same | ⟨l, changed, passes⟩
  · rw [same]
    exact .refl _
  · rw [changed, Pool.lane_setLane]
    split
    next e => rw [e]; exact passes
    next => exact .refl _

end Cluster

end Workshare
