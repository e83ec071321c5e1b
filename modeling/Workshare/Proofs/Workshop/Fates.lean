import Workshare.Proofs.Workshop.Turnouts

namespace Workshare

/-- Who waits for the end of a work that task `t` has handed over. -/
def Mode.waiter (t : Ticket) : Mode → Option Ticket
  | .run => some t
  | .start => none
  | .schedule => none

namespace Workshop

section Fates

variable (w : Workshop) (n : NodeId)

/-- The handler of a work was looked up by task `h` and ends so: it was started once, or there is none. -/
structure Ran (work : Work) (h : Ticket) (verdict : Verdict) : Prop where
  due : w.due h = some verdict
  started : (∃ i title, w.heard h = [(i, .ran n title work)]) ∨
    w.heard h = [] ∧ verdict = Registry.unknown work.handler

/-- How far the handler of a work is, and the verdict that it has left. -/
inductive Handling (work : Work) (r h : Ticket) : Option Verdict → Prop
  | fresh : w.task h = some (.handler n work (some r) .fresh) → w.heard h = [] → w.posted h = none →
      Handling work r h none
  | going {stage : HandlerStage} {verdict : Verdict} : w.task h = some (.handler n work (some r) stage) →
      stage ≠ .fresh → (∀ g, stage.verdict g work = verdict) → w.Ran n work h verdict → w.posted h = none →
      Handling work r h none
  | finished {verdict : Verdict} : w.task h = none → w.Ran n work h verdict → w.posted h = some verdict →
      Handling work r h (some verdict)

/-- How far the task is that holds the worker of a work, and the verdict that it has reported. -/
inductive Crew (work : Work) (waiter : Option Ticket) (r : Ticket) : Option Verdict → Prop
  | hired : w.task r = some (.runner n work waiter none) → w.heard r = [] → w.Alone r → Crew work waiter r none
  | manned {h : Ticket} {left : Option Verdict} : w.task r = some (.runner n work waiter (some h)) → w.heard r = [] →
      w.Began r h → w.Handling n work r h left → Crew work waiter r none
  | retired {h : Ticket} {verdict : Verdict} {i : Nat} : w.task r = none →
      w.heard r = [(i, .completed n work verdict.isOk)] → w.Began r h → w.task h = none → w.Ran n work h verdict →
      Crew work waiter r (some verdict)

/-- What the caller of an accepted work has been told. -/
inductive Front (t : Ticket) (mode : Mode) (work : Work) (r : Ticket) : Option Verdict → Prop
  | awaits {reported : Option Verdict} : mode = .run →
      w.task t = some (.errand ⟨n, mode, work, .finish r⟩ .caller) → w.heard t = [] → w.cluster.told t = [] →
      w.posted r = reported → Front t mode work r reported
  | ended {verdict : Verdict} {i : Nat} : mode = .run → w.task t = none →
      w.heard t = [(i, .answered n mode verdict.outcome)] → w.cluster.told t = [.outcome (.ok verdict.outcome)] →
      Front t mode work r (some verdict)
  | begun {reported : Option Verdict} {delay : Option UInt64} {i : Nat} : mode ≠ .run → w.task t = none →
      w.heard t = [(i, .answered n mode (.ok delay))] → w.cluster.told t = [.outcome (.ok (.ok delay))] →
      (delay.isSome ↔ mode = .start) → Front t mode work r reported

/-- What has become of a work that task `t` has handed over. -/
inductive Fate (p : Pool) (t : Ticket) (mode : Mode) (work : Work) : Prop
  | fresh : w.task t = some (.submit n mode work false) → w.heard t = [] → w.cluster.told t = [] → w.Alone t →
      w.asked t = none → Fate p t mode work
  | queued {since : Nat} :
      w.task t = some (.errand ⟨n, mode, work, .worker since (since + p.startTimeout.millis)⟩ .caller) →
      w.heard t = [] → w.cluster.told t = [] → w.Alone t → w.asked t = some since →
      t ∈ (w.cluster.lane n work.longRunning).waiting ∨ t ∈ (w.cluster.lane n work.longRunning).granted →
      Fate p t mode work
  | rejected {since i : Nat} : w.task t = none →
      w.heard t = [(i, .answered n mode (.error (.rejected (p.noWorker work.longRunning))))] →
      w.cluster.told t = [.outcome (.ok (.error (.rejected (p.noWorker work.longRunning))))] → w.Alone t →
      w.asked t = some since → since + p.startTimeout.millis ≤ i → Fate p t mode work
  | accepted {r : Ticket} {reported : Option Verdict} : w.Began t r → w.Crew n work (mode.waiter t) r reported →
      w.Front n t mode work r reported → Fate p t mode work

end Fates

/-- Nothing has happened under this ticket. -/
structure Blank (w : Workshop) (v : Ticket) : Prop where
  task : w.task v = none
  heard : w.heard v = []
  told : w.cluster.told v = []
  posted : w.posted v = none
  asked : w.asked v = none
  parent : w.parent v = none
  alone : w.Alone v
  order : w.orders.get? v = none

/-- Nothing more has happened under this ticket. -/
structure Keeps (w w' : Workshop) (v : Ticket) : Prop where
  task : w'.task v = w.task v
  heard : w'.heard v = w.heard v
  told : w'.cluster.told v = w.cluster.told v
  due : w'.due v = w.due v
  asked : w'.asked v = w.asked v
  began : ∀ u, w'.parent u = some v ↔ w.parent u = some v

/-- The verdict that was left is still there as well. -/
structure Stays (w w' : Workshop) (v : Ticket) : Prop extends Keeps w w' v where
  posted : w'.posted v = w.posted v

variable {w w' : Workshop} {n : NodeId} {p q : Pool} {t s r h v : Ticket} {mode : Mode} {work : Work} {task : Task}
  {waiter : Option Ticket} {left reported : Option Verdict} {verdict : Verdict} {y : Yield}

theorem Of.of_alone (of : w.Of t s) (alone : w.Alone t) : s = t :=
  of.resolve_right fun below => below.elim (alone s) fun ⟨r, _, hr⟩ => alone r hr

theorem Keeps.alone (keeps : w.Keeps w' v) (h : w.Alone v) : w'.Alone v :=
  fun u hu => h u ((keeps.began u).mp hu)

theorem Keeps.sole (keeps : w.Keeps w' v) (h : w.Began v s) : w'.Began v s :=
  fun u => (keeps.began u).trans (h u)

theorem Ran.kept (ran : w.Ran n work h verdict) (due : w'.due h = w.due h) (heard : w'.heard h = w.heard h) :
    w'.Ran n work h verdict := by
  refine ⟨due.trans ran.due, ?_⟩
  rw [heard]
  exact ran.started

theorem Handling.kept (handling : w.Handling n work r h left) (keeps : w.Stays w' h) : w'.Handling n work r h left := by
  cases handling with
  | fresh there silent nothing =>
    exact .fresh (keeps.task.trans there) (keeps.heard.trans silent) (keeps.posted.trans nothing)
  | going there begun verdict ran nothing =>
    exact .going (keeps.task.trans there) begun verdict (ran.kept keeps.due keeps.heard) (keeps.posted.trans nothing)
  | finished gone ran left =>
    exact .finished (keeps.task.trans gone) (ran.kept keeps.due keeps.heard) (keeps.posted.trans left)

theorem Crew.kept (crew : w.Crew n work waiter r reported) (keeps : w.Keeps w' r)
    (below : ∀ v, w.parent v = some r → w.Stays w' v) : w'.Crew n work waiter r reported := by
  cases crew with
  | hired there silent alone => exact .hired (keeps.task.trans there) (keeps.heard.trans silent) (keeps.alone alone)
  | manned there silent began handling =>
    exact .manned (keeps.task.trans there) (keeps.heard.trans silent) (keeps.sole began)
      (handling.kept (below _ ((began _).mpr rfl)))
  | retired gone told began ended ran =>
    have same := below _ ((began _).mpr rfl)
    exact .retired (keeps.task.trans gone) (keeps.heard.trans told) (keeps.sole began) (same.task.trans ended)
      (ran.kept same.due same.heard)

theorem Front.kept (front : w.Front n t mode work r reported) (keeps : w.Keeps w' t)
    (posted : w'.posted r = w.posted r) : w'.Front n t mode work r reported := by
  cases front with
  | awaits run there silent untold left =>
    exact .awaits run (keeps.task.trans there) (keeps.heard.trans silent) (keeps.told.trans untold) (posted.trans left)
  | ended run gone heard told =>
    exact .ended run (keeps.task.trans gone) (keeps.heard.trans heard) (keeps.told.trans told)
  | begun later gone heard told delay =>
    exact .begun later (keeps.task.trans gone) (keeps.heard.trans heard) (keeps.told.trans told) delay

/-- Where nothing happens to the tasks of a work, and whoever waits in its lane still does or was handed a worker. -/
theorem Fate.kept (fate : w.Fate n p t mode work) (each : ∀ v, w.Of t v → w.Stays w' v) (other : s ≠ t)
    (passes : (w.cluster.lane n work.longRunning).Passes s (w'.cluster.lane n work.longRunning)) :
    w'.Fate n p t mode work := by
  have own := each t (.inl rfl)
  cases fate with
  | fresh there silent untold alone unasked =>
    exact .fresh (own.task.trans there) (own.heard.trans silent) (own.told.trans untold) (own.alone alone)
      (own.asked.trans unasked)
  | queued there silent untold alone asked line =>
    refine .queued (own.task.trans there) (own.heard.trans silent) (own.told.trans untold) (own.alone alone)
      (own.asked.trans asked) ?_
    rcases line with waiting | granted
    · exact passes.waiting t other.symm waiting
    · exact .inr (passes.granted t other.symm granted)
  | rejected gone heard told alone asked late =>
    exact .rejected (own.task.trans gone) (own.heard.trans heard) (own.told.trans told) (own.alone alone)
      (own.asked.trans asked) late
  | accepted began crew front =>
    have hired := (began _).mpr rfl
    have runner := each _ (.inr (.inl hired))
    exact .accepted (own.sole began) (crew.kept runner.toKeeps fun v hv => each v (.inr (.inr ⟨_, hv, hired⟩)))
      (front.kept own.toKeeps runner.posted)

/-- Task `s` has gone on in a workshop, and this has come of it. -/
structure Goes (w w' : Workshop) (n : NodeId) (s : Ticket) (y : Yield) : Prop where
  lone : w'.cluster.Lone n y.pool
  fresh : w'.cluster.fresh = y.child.elim w.cluster.fresh fun _ => w.cluster.fresh + 1
  task : ∀ v, w'.task v =
    if v = s then y.left else if v = w.cluster.fresh then y.child.or (w.task v) else w.task v
  heard : ∀ v, w'.heard v = w.heard v ++ if v = s then y.news.map (w.cluster.now, ·) else []
  told : ∀ v, w'.cluster.told v = w.cluster.told v ++ if v = s then y.said.toList else []
  posted : ∀ v, w'.posted v = y.verdicts.get? v
  asked : ∀ v, w'.asked v = if v = s ∧ w.asked v = none then some w.cluster.now else w.asked v
  parent : ∀ v, w'.parent v = if v = w.cluster.fresh ∧ y.child.isSome then some s else w.parent v
  due : ∀ v, w'.due v = if v = s then (w.cluster.looksUp? v).or (w.due v) else w.due v
  orders : w'.orders = w.orders

theorem heard_append (w : Workshop) (c : Cluster) (orders : Table Ticket (Mode × Work))
    (more : List (Nat × Option Ticket × Event)) (asked : Ticket → Option Nat) (parent : Ticket → Option Ticket)
    (due : Ticket → Option Verdict) (v : Ticket) :
    heard ⟨c, orders, w.log ++ more, asked, parent, due⟩ v =
      w.heard v ++ (more.filter fun e => e.2.1 = some v ∧ ¬ e.2.2.isEffect).map fun e => (e.1, e.2.2) := by
  unfold heard
  rw [List.filter_append, List.map_append]

/-- Of what happens in a go only its task hears. -/
theorem filter_doer (i : Nat) (doer : Option Ticket) (v : Ticket) (news : List Event) :
    ((news.map fun e => (i, doer, e)).filter fun e => e.2.1 = some v ∧ ¬ e.2.2.isEffect).map (fun e => (e.1, e.2.2)) =
      if doer = some v then (news.filter (¬ ·.isEffect)).map (i, ·) else [] := by
  rw [List.filter_map, List.map_map]
  by_cases own : doer = some v
  · rw [if_pos own]
    congr 1
    refine congrArg (List.filter · news) (funext fun e => ?_)
    simp [own]
  · rw [if_neg own, List.filter_eq_nil_iff.mpr]
    · rfl
    · intro e _
      simp [own]

theorem doer_iff {v : Ticket} : some s = some v ↔ v = s :=
  ⟨fun e => (Option.some.inj e).symm, fun e => congrArg some e.symm⟩

theorem born_iff (first v : Ticket) (child : Option Task) :
    (first ≤ v ∧ v < child.elim first fun _ => first + 1) ↔ v = first ∧ child.isSome := by
  cases child with
  | none => exact ⟨fun h => absurd h.2 (Nat.not_lt_of_le h.1), nofun⟩
  | some child =>
    refine ⟨fun h => ⟨Nat.le_antisymm (Nat.le_of_lt_succ h.2) h.1, rfl⟩, ?_⟩
    rintro ⟨rfl, _⟩
    exact ⟨Nat.le_refl _, Nat.lt_succ_self _⟩

theorem told_yields {c : Cluster} (yields : Cluster.Yields n s w.cluster c y) (v : Ticket) :
    c.told v = w.cluster.told v ++ if v = s then y.said.toList else [] := by
  by_cases own : v = s
  · rw [if_pos own, own]
    exact Course.told_of_own yields.answers
  · rw [if_neg own, List.append_nil]
    have mine : ∀ e ∈ (y.said.map (s, ·)).toList, some s = some e.1 := by
      intro e he
      obtain ⟨_, _, rfl⟩ := Option.map_eq_some_iff.mp (Option.mem_toList.mp he)
      rfl
    exact Course.told_of_others yields.answers mine fun e => own (doer_iff.mp e)

theorem tend_go (there : w.task s = some task) : w.cluster.tend n (.go s) = w.cluster.resume s task := by
  have there : w.cluster.tasks.get? s = some task := there
  show w.cluster.poll s = _
  unfold Cluster.poll
  rw [there]

theorem goes_take (there : w.task s = some task)
    (yields : Cluster.Yields n s w.cluster (w.cluster.resume s task) y) : w.Goes (w.take n (.go s)) n s y := by
  have goes : w.cluster.tend n (.go s) = w.cluster.resume s task := tend_go there
  obtain ⟨news, events, loud⟩ := yields.events
  refine ⟨?_, ?_, ?_, ?_, ?_, ?_, ?_, ?_, ?_, rfl⟩
  · show (w.cluster.tend n (.go s)).Lone n y.pool
    rw [goes]
    exact yields.lone
  · show (w.cluster.tend n (.go s)).fresh = _
    rw [goes]
    exact yields.fresh
  · intro v
    show (w.cluster.tend n (.go s)).tasks.get? v = _
    rw [goes]
    exact yields.task v
  · intro v
    have told : (w.take n (.go s)).heard v = _ := heard_append w _ _ _ _ _ _ v
    rw [told, goes, events, List.drop_left, filter_doer, loud]
    exact congrArg (w.heard v ++ ·) (if_congr doer_iff rfl rfl)
  · intro v
    show (w.cluster.tend n (.go s)).told v = _
    rw [goes]
    exact told_yields yields v
  · intro v
    show (w.cluster.tend n (.go s)).verdicts.get? v = _
    rw [goes, yields.verdicts]
  · intro v
    have alive : w.cluster.tasks.contains s := congrArg Option.isSome there
    refine if_congr ⟨fun h => ⟨doer_iff.mp h.1, h.2.1⟩, ?_⟩ rfl rfl
    rintro ⟨rfl, unasked⟩
    exact ⟨rfl, unasked, alive⟩
  · intro v
    show (if w.cluster.fresh ≤ v ∧ v < (w.cluster.tend n (.go s)).fresh then some s else w.parent v) = _
    rw [goes, yields.fresh]
    exact if_congr (born_iff _ v y.child) rfl rfl
  · exact fun v => if_congr doer_iff rfl rfl

namespace Goes

section Own

variable (goes : w.Goes w' n s y)

include goes

theorem own_task : w'.task s = y.left :=
  (goes.task s).trans (if_pos rfl)

theorem own_heard (silent : w.heard s = []) : w'.heard s = y.news.map (w.cluster.now, ·) := by
  rw [goes.heard, if_pos rfl, silent, List.nil_append]

theorem still_heard (nothing : y.news = []) : w'.heard s = w.heard s := by
  rw [goes.heard, if_pos rfl, nothing, List.map_nil, List.append_nil]

theorem own_told (untold : w.cluster.told s = []) : w'.cluster.told s = y.said.toList := by
  rw [goes.told, if_pos rfl, untold, List.nil_append]

theorem lane (long : Bool) : w'.cluster.lane n long = y.pool.lane long :=
  goes.lone.lane long

theorem began (child : y.child.isSome) (alone : w.Alone s) : w'.Began s w.cluster.fresh := by
  intro u
  rw [goes.parent]
  split
  next born => exact ⟨fun _ => born.1, fun _ => rfl⟩
  next unborn => exact ⟨fun e => absurd e (alone u), fun e => absurd ⟨e, child⟩ unborn⟩

end Own

section Born

variable (goes : w.Goes w' n s y) (blank : w.Blank w.cluster.fresh)

include goes blank

theorem parent_old (old : v ≠ s) (u : Ticket) : w'.parent u = some v ↔ w.parent u = some v := by
  rw [goes.parent]
  split
  next born =>
    rw [born.1, blank.parent]
    exact ⟨fun e => absurd (Option.some.inj e).symm old, nofun⟩
  next => rfl

theorem keeps (other : v ≠ s) (old : v ≠ w.cluster.fresh) : w.Keeps w' v := by
  refine ⟨?_, ?_, ?_, ?_, ?_, goes.parent_old blank other⟩
  · rw [goes.task, if_neg other, if_neg old]
  · rw [goes.heard, if_neg other, List.append_nil]
  · rw [goes.told, if_neg other, List.append_nil]
  · rw [goes.due, if_neg other]
  · rw [goes.asked, if_neg fun h => other h.1]

theorem stays (other : v ≠ s) (old : v ≠ w.cluster.fresh) (posted : y.verdicts.get? v = w.posted v) : w.Stays w' v :=
  ⟨goes.keeps blank other old, (goes.posted v).trans posted⟩

theorem newborn_task (older : s ≠ w.cluster.fresh) : w'.task w.cluster.fresh = y.child := by
  rw [goes.task, if_neg older.symm, if_pos rfl, blank.task, Option.or_none]

theorem newborn_heard (older : s ≠ w.cluster.fresh) : w'.heard w.cluster.fresh = [] := by
  rw [goes.heard, if_neg older.symm, blank.heard, List.append_nil]

theorem newborn_alone (older : s ≠ w.cluster.fresh) : w'.Alone w.cluster.fresh :=
  fun u hu => blank.alone u ((goes.parent_old blank older.symm u).mp hu)

end Born

section Childless

variable (goes : w.Goes w' n s y) (none : y.child = none)

include goes none

theorem parent_childless (u : Ticket) : w'.parent u = w.parent u := by
  rw [goes.parent, if_neg]
  rintro ⟨_, some⟩
  rw [none] at some
  cases some

theorem still_alone (alone : w.Alone s) : w'.Alone s :=
  fun u hu => alone u ((goes.parent_childless none u).symm.trans hu)

theorem still_sole (began : w.Began s v) : w'.Began s v :=
  fun u => by rw [goes.parent_childless none u]; exact began u

end Childless

end Goes

/-- A work that looks for a worker: so far nothing has come of it. -/
structure Looks (w : Workshop) (t : Ticket) : Prop where
  older : t ≠ w.cluster.fresh
  blank : w.Blank w.cluster.fresh
  silent : w.heard t = []
  untold : w.cluster.told t = []
  alone : w.Alone t

namespace Looks

variable {pool : Pool}

theorem hired (looks : w.Looks t) (goes : w.Goes w' n t ⟨pool, some (.runner n work (some t) none),
    w.cluster.verdicts, [], some (.errand ⟨n, .run, work, .finish w.cluster.fresh⟩ .caller), none⟩) :
    w'.Fate n p t .run work := by
  obtain ⟨older, blank, silent, untold, alone⟩ := looks
  refine .accepted (goes.began rfl alone)
    (.hired (goes.newborn_task blank older) (goes.newborn_heard blank older) (goes.newborn_alone blank older))
    (.awaits rfl goes.own_task (goes.own_heard silent) (goes.own_told untold) ?_)
  exact (goes.posted _).trans blank.posted

theorem begun (looks : w.Looks t) (later : mode ≠ .run) {delay : Option UInt64} (started : delay.isSome ↔ mode = .start)
    (goes : w.Goes w' n t ⟨pool, some (.runner n work none none), w.cluster.verdicts, [.answered n mode (.ok delay)],
      none, some (.outcome (.ok (.ok delay)))⟩) : w'.Fate n p t mode work := by
  obtain ⟨older, blank, silent, untold, alone⟩ := looks
  have waiter : mode.waiter t = none := by cases mode <;> first | rfl | exact absurd rfl later
  have crew : w'.Crew n work (mode.waiter t) w.cluster.fresh none := by
    rw [waiter]
    exact .hired (goes.newborn_task blank older) (goes.newborn_heard blank older) (goes.newborn_alone blank older)
  exact .accepted (goes.began rfl alone) crew
    (.begun later goes.own_task (goes.own_heard silent) (goes.own_told untold) started)

theorem queued (looks : w.Looks t) {since : Nat} (asked : w'.asked t = some since)
    (goes : w.Goes w' n t ⟨pool, none, w.cluster.verdicts, [],
      some (.errand ⟨n, mode, work, .worker since (since + p.startTimeout.millis)⟩ .caller), none⟩)
    (waiting : t ∈ (pool.lane work.longRunning).waiting) : w'.Fate n p t mode work := by
  refine .queued goes.own_task (goes.own_heard looks.silent) (goes.own_told looks.untold)
    (goes.still_alone rfl looks.alone) asked (.inl ?_)
  rw [goes.lane]
  exact waiting

theorem rejected (looks : w.Looks t) {since : Nat} (asked : w'.asked t = some since)
    (late : since + p.startTimeout.millis ≤ w.cluster.now)
    (goes : w.Goes w' n t ⟨pool, none, w.cluster.verdicts,
      [.answered n mode (.error (.rejected (p.noWorker work.longRunning)))], none,
      some (.outcome (.ok (.error (.rejected (p.noWorker work.longRunning)))))⟩) : w'.Fate n p t mode work :=
  .rejected goes.own_task (goes.own_heard looks.silent) (goes.own_told looks.untold) (goes.still_alone rfl looks.alone)
    asked late

end Looks

/-- The verdicts that a go takes or leaves are those of its own work. -/
def Spares (w : Workshop) (t : Ticket) (verdicts : Table Ticket Verdict) : Prop :=
  ∀ v, ¬ w.Of t v → verdicts.get? v = w.posted v

theorem spares_same : w.Spares t w.cluster.verdicts :=
  fun _ _ => rfl

theorem noWorker_of_kin (kin : q.startTimeout = p.startTimeout) (long : Bool) : q.noWorker long = p.noWorker long := by
  unfold Pool.noWorker
  rw [kin]

theorem Looks.go_submit (looks : w.Looks t) (kin : q.startTimeout = p.startTimeout) (unasked : w.asked t = none)
    (seeks : Cluster.Seeks n q t w.cluster (.submit n mode work false) y) (goes : w.Goes w' n t y) :
    w'.Fate n p t mode work ∧ w.Spares t y.verdicts := by
  have asked : w'.asked t = some w.cluster.now := (goes.asked t).trans (if_pos ⟨rfl, unasked⟩)
  cases seeks with
  | hired gets =>
    cases gets with
    | asked _ => exact ⟨looks.hired goes, spares_same⟩
  | begun gets later started =>
    cases gets with
    | asked _ => exact ⟨looks.begun later started goes, spares_same⟩
  | queued misses =>
    cases misses with
    | asked asks =>
      rw [kin] at goes
      refine ⟨looks.queued asked goes ?_, spares_same⟩
      rw [Pool.lane_setLane_self]
      exact Lane.waits_of_ask asks
  | rejected misses late =>
    cases misses with
    | asked asks =>
      rw [kin] at late
      rw [noWorker_of_kin kin] at goes
      exact ⟨looks.rejected asked late goes, spares_same⟩

theorem Looks.go_queued (looks : w.Looks t) (kin : q.startTimeout = p.startTimeout) {since : Nat}
    (asked : w.asked t = some since)
    (line : t ∈ (q.lane work.longRunning).waiting ∨ t ∈ (q.lane work.longRunning).granted)
    (seeks : Cluster.Seeks n q t w.cluster
      (.errand ⟨n, mode, work, .worker since (since + p.startTimeout.millis)⟩ .caller) y)
    (goes : w.Goes w' n t y) : w'.Fate n p t mode work ∧ w.Spares t y.verdicts := by
  have asked : w'.asked t = some since := by
    rw [goes.asked, if_neg, asked]
    rintro ⟨_, unasked⟩
    rw [asked] at unasked
    cases unasked
  cases seeks with
  | hired gets =>
    cases gets with
    | collected _ => exact ⟨looks.hired goes, spares_same⟩
  | begun gets later started =>
    cases gets with
    | collected _ => exact ⟨looks.begun later started goes, spares_same⟩
  | queued misses =>
    cases misses with
    | collected collects =>
      refine ⟨looks.queued asked goes ?_, spares_same⟩
      rw [Pool.lane_setLane_self]
      exact Lane.waits_of_collect collects line
  | rejected misses late =>
    cases misses with
    | collected _ =>
      rw [noWorker_of_kin kin] at goes
      exact ⟨looks.rejected asked late goes, spares_same⟩

theorem Front.go (front : w.Front n t mode work r reported) (there : w.task t = some task)
    (turnout : Cluster.Turnout n q t w.cluster task y) (goes : w.Goes w' n t y) :
    w'.Front n t mode work r reported ∧ y.child = none ∧ ∀ v, v ≠ r → y.verdicts.get? v = w.posted v := by
  cases front with
  | awaits run own silent untold left =>
    rw [own] at there
    cases there
    cases turnout with
    | seeks seeks => exact absurd seeks.isSeeker nofun
    | awaits nothing =>
      refine ⟨.awaits run goes.own_task (goes.own_heard silent) (goes.own_told untold) ?_, rfl, fun _ _ => rfl⟩
      exact (goes.posted r).trans left
    | answered verdict =>
      have verdict : reported = some _ := left.symm.trans verdict
      rw [verdict]
      refine ⟨.ended run goes.own_task (goes.own_heard silent) (goes.own_told untold), rfl, fun v other => ?_⟩
      exact (Table.get?_erase _ _ _).trans (if_neg other)
  | ended run gone heard told =>
    rw [gone] at there
    cases there
  | begun later gone heard told delay =>
    rw [gone] at there
    cases there

/-- The tickets of a work are different ones. -/
theorem ne_of_began (root : w.parent t = none) (hired : w.parent r = some t) : r ≠ t := by
  rintro rfl
  rw [root] at hired
  cases hired

theorem ne_of_manned (root : w.parent t = none) (hired : w.parent r = some t) (manned : w.parent h = some r) :
    h ≠ t ∧ h ≠ r := by
  refine ⟨?_, ?_⟩
  · rintro rfl
    rw [root] at manned
    cases manned
  · rintro rfl
    rw [hired] at manned
    exact ne_of_began root hired (Option.some.inj manned).symm

theorem ne_fresh (blank : w.Blank w.cluster.fresh) (began : w.parent v = some s) : v ≠ w.cluster.fresh := by
  rintro rfl
  rw [blank.parent] at began
  cases began

/-- The verdict of a work is reported, and left for its caller if that one waits. -/
theorem Front.settles (front : w.Front n t mode work r none) (keeps : w.Keeps w' t)
    (posted : mode = .run → w'.posted r = some verdict) : w'.Front n t mode work r (some verdict) := by
  cases front with
  | awaits run there silent untold _ =>
    exact .awaits run (keeps.task.trans there) (keeps.heard.trans silent) (keeps.told.trans untold) (posted run)
  | begun later gone heard told delay =>
    exact .begun later (keeps.task.trans gone) (keeps.heard.trans heard) (keeps.told.trans told) delay

/-- Where a verdict is passed on from the handler to whoever waits, all others stay. -/
theorem get?_passed (verdicts : Table Ticket Verdict) (waiter : Option Ticket) (verdict : Verdict) (unlike : v ≠ h)
    (apart : v ≠ r) :
    (waiter.elim (verdicts.erase h) fun _ => (verdicts.erase h).insert r verdict).get? v = verdicts.get? v := by
  have erased : (verdicts.erase h).get? v = verdicts.get? v := (Table.get?_erase _ _ _).trans (if_neg unlike)
  cases waiter with
  | none => exact erased
  | some t => exact ((Table.get?_insert _ _ _ _).trans (if_neg apart)).trans erased

/-- A handler that has left a verdict is over. -/
theorem Handling.over (handling : w.Handling n work r h left) (posted : w.posted h = some verdict) :
    w.task h = none ∧ w.Ran n work h verdict := by
  cases handling with
  | fresh _ _ nothing => rw [nothing] at posted; cases posted
  | going _ _ _ _ nothing => rw [nothing] at posted; cases posted
  | finished gone ran left =>
    rw [left] at posted
    cases posted
    exact ⟨gone, ran⟩

theorem Crew.go (crew : w.Crew n work (mode.waiter t) r reported) (front : w.Front n t mode work r reported)
    (began : w.Began t r) (root : w.parent t = none) (young : t ≠ w.cluster.fresh) (blank : w.Blank w.cluster.fresh)
    (there : w.task r = some task) (turnout : Cluster.Turnout n q r w.cluster task y) (goes : w.Goes w' n r y) :
    w'.Fate n p t mode work ∧ w.Spares t y.verdicts := by
  have hired := (began r).mpr rfl
  have other := ne_of_began root hired
  have older := ne_fresh blank hired
  cases crew with
  | hired own silent alone =>
    rw [own] at there
    cases there
    cases turnout with
    | seeks seeks => exact absurd seeks.isSeeker nofun
    | manned =>
      have keeps := goes.keeps blank other.symm young
      have handling : w'.Handling n work r w.cluster.fresh none := .fresh (goes.newborn_task blank older)
        (goes.newborn_heard blank older) ((goes.posted _).trans blank.posted)
      have crew : w'.Crew n work (mode.waiter t) r none :=
        .manned goes.own_task (goes.own_heard silent) (goes.began rfl alone) handling
      exact ⟨.accepted (keeps.sole began) crew (front.kept keeps (goes.posted r)), spares_same⟩
  | @manned h left own silent sole handling =>
    have manned := (sole h).mpr rfl
    have apart := (ne_of_manned root hired manned).2
    have oldest := ne_fresh blank manned
    rw [own] at there
    cases there
    cases turnout with
    | seeks seeks => exact absurd seeks.isSeeker nofun
    | attends nothing =>
      have keeps := goes.keeps blank other.symm young
      have crew : w'.Crew n work (mode.waiter t) r none := .manned goes.own_task (goes.own_heard silent)
        (goes.still_sole rfl sole) (handling.kept (goes.stays blank apart oldest rfl))
      exact ⟨.accepted (keeps.sole began) crew (front.kept keeps (goes.posted r)), spares_same⟩
    | @retired _ _ _ verdict posted =>
      have keeps := goes.keeps blank other.symm young
      -- the verdict is taken off the table and posted again under the ticket of the runner
      obtain ⟨gone, ran⟩ := handling.over posted
      have ended : w'.task h = none := by rw [goes.task, if_neg apart, if_neg oldest, gone]
      have ran : w'.Ran n work h verdict := by
        refine ran.kept ?_ ?_
        · rw [goes.due, if_neg apart]
        · rw [goes.heard, if_neg apart, List.append_nil]
      have crew : w'.Crew n work (mode.waiter t) r (some verdict) :=
        .retired goes.own_task (goes.own_heard silent) (goes.still_sole rfl sole) ended ran
      refine ⟨.accepted (keeps.sole began) crew (front.settles keeps ?_), fun v foreign => ?_⟩
      · rintro rfl
        exact (goes.posted r).trans ((Table.get?_insert _ _ _ _).trans (if_pos rfl))
      · refine get?_passed _ _ _ ?_ ?_
        · rintro rfl
          exact foreign (.inr (.inr ⟨r, manned, hired⟩))
        · rintro rfl
          exact foreign (.inr (.inl hired))
  | retired gone _ _ _ _ =>
    rw [gone] at there
    cases there

theorem looksUp_fresh (lone : w.cluster.Lone n q) {runner : Option Ticket}
    (there : w.task h = some (.handler n work runner .fresh)) :
    w.cluster.looksUp? h = some (q.handlers.verdict work) := by
  have there : w.cluster.tasks.get? h = some (.handler n work runner .fresh) := there
  unfold Cluster.looksUp?
  rw [there, ← lone.handlers]

theorem looksUp_later {runner : Option Ticket} {stage : HandlerStage}
    (there : w.task h = some (.handler n work runner stage)) (begun : stage ≠ .fresh) :
    w.cluster.looksUp? h = none := by
  have there : w.cluster.tasks.get? h = some (.handler n work runner stage) := there
  unfold Cluster.looksUp?
  rw [there]
  cases stage with
  | fresh => exact absurd rfl begun
  | asleep _ _ => rfl
  | held _ => rfl

/-- A handler has started, if there is one. -/
theorem Goes.ran (goes : w.Goes w' n h y) (lone : w.cluster.Lone n q) {runner : Option Ticket}
    (there : w.task h = some (.handler n work runner .fresh)) (silent : w.heard h = [])
    (news : y.news = HandlerStage.fresh.news q.handlers n work) : w'.Ran n work h (q.handlers.verdict work) := by
  refine ⟨?_, ?_⟩
  · rw [goes.due, if_pos rfl, looksUp_fresh lone there]
    rfl
  · rw [goes.own_heard silent, news]
    unfold HandlerStage.news Registry.verdict
    cases q.handlers.get? work.handler with
    | none => exact .inr ⟨rfl, rfl⟩
    | some handler => exact .inl ⟨w.cluster.now, handler.title, rfl⟩

theorem Handling.go (handling : w.Handling n work r h left) (lone : w.cluster.Lone n q)
    (there : w.task h = some task) (turnout : Cluster.Turnout n q h w.cluster task y) (goes : w.Goes w' n h y) :
    ∃ left', w'.Handling n work r h left' ∧ ∀ v, v ≠ h → y.verdicts.get? v = w.posted v := by
  have aside : ∀ verdict v, v ≠ h → (w.cluster.verdicts.insert h verdict).get? v = w.posted v :=
    fun _ _ other => (Table.get?_insert _ _ _ _).trans (if_neg other)
  have left : ∀ verdict, (w.cluster.verdicts.insert h verdict).get? h = some verdict :=
    fun _ => (Table.get?_insert _ _ _ _).trans (if_pos rfl)
  cases handling with
  | fresh own silent nothing =>
    rw [own] at there
    cases there
    cases turnout with
    | seeks seeks => exact absurd seeks.isSeeker nofun
    | goes verdict begun =>
      refine ⟨none, .going goes.own_task begun verdict (goes.ran lone own silent rfl) ?_, fun _ _ => rfl⟩
      exact (goes.posted h).trans nothing
    | ended =>
      exact ⟨_, .finished goes.own_task (goes.ran lone own silent rfl) ((goes.posted h).trans (left _)), aside _⟩
  | @going stage verdict own begun same ran nothing =>
    have still : y.news = stage.news q.handlers n work → w'.Ran n work h verdict := by
      intro news
      have quiet : y.news = [] := by
        rw [news]
        cases stage with
        | fresh => exact absurd rfl begun
        | asleep _ _ => rfl
        | held _ => rfl
      refine ran.kept ?_ (goes.still_heard quiet)
      rw [goes.due, if_pos rfl, looksUp_later own begun]
      rfl
    rw [own] at there
    cases there
    cases turnout with
    | seeks seeks => exact absurd seeks.isSeeker nofun
    | goes verdict later =>
      refine ⟨none, .going goes.own_task later (fun g => (verdict g).trans (same _)) (still rfl) ?_, fun _ _ => rfl⟩
      exact (goes.posted h).trans nothing
    | ended =>
      rw [same] at goes
      exact ⟨_, .finished goes.own_task (still rfl) ((goes.posted h).trans (left _)), aside _⟩
  | finished gone _ _ =>
    rw [gone] at there
    cases there

/-- Whatever goes on of a work takes the work further, and touches the verdicts of no other. -/
theorem Fate.go (fate : w.Fate n p t mode work) (lone : w.cluster.Lone n q) (kin : q.startTimeout = p.startTimeout)
    (root : w.parent t = none) (young : t ≠ w.cluster.fresh) (blank : w.Blank w.cluster.fresh) (of : w.Of t s)
    (there : w.task s = some task) (turnout : Cluster.Turnout n q s w.cluster task y) (goes : w.Goes w' n s y) :
    w'.Fate n p t mode work ∧ w.Spares t y.verdicts := by
  cases fate with
  | fresh own silent untold alone unasked =>
    obtain rfl := of.of_alone alone
    rw [own] at there
    cases there
    cases turnout with
    | seeks seeks => exact Looks.go_submit ⟨young, blank, silent, untold, alone⟩ kin unasked seeks goes
  | queued own silent untold alone asked line =>
    obtain rfl := of.of_alone alone
    rw [own] at there
    cases there
    rw [lone.lane] at line
    cases turnout with
    | seeks seeks => exact Looks.go_queued ⟨young, blank, silent, untold, alone⟩ kin asked line seeks goes
  | rejected gone heard told alone asked late =>
    obtain rfl := of.of_alone alone
    rw [gone] at there
    cases there
  | @accepted r reported began crew front =>
    have hired := (began r).mpr rfl
    have other := ne_of_began root hired
    have older := ne_fresh blank hired
    -- whoever goes on is the submission, its runner, or the handler that its runner started
    rcases of with rfl | below | ⟨r', manned, below⟩
    · obtain ⟨front, childless, spares⟩ := front.go there turnout goes
      refine ⟨.accepted (goes.still_sole childless began) (crew.kept (goes.keeps blank other older) ?_) front, ?_⟩
      · intro h manned
        obtain ⟨strange, apart⟩ := ne_of_manned root hired manned
        exact goes.stays blank strange (ne_fresh blank manned) (spares h apart)
      · intro v foreign
        refine spares v ?_
        rintro rfl
        exact foreign (.inr (.inl hired))
    · obtain rfl := (began s).mp below
      exact crew.go front began root young blank there turnout goes
    · obtain rfl := (began r').mp below
      obtain ⟨strange, apart⟩ := ne_of_manned root hired manned
      have own := goes.keeps blank strange.symm young
      cases crew with
      | hired _ _ alone => exact absurd manned (alone s)
      | manned busy silent sole handling =>
        obtain rfl := (sole s).mp manned
        obtain ⟨left, handling, aside⟩ := handling.go lone there turnout goes
        have runner := goes.stays blank apart.symm older (aside r' apart.symm)
        refine ⟨.accepted (own.sole began) (.manned (runner.task.trans busy) (runner.heard.trans silent)
          (runner.sole sole) handling) (front.kept own runner.posted), fun v foreign => aside v ?_⟩
        rintro rfl
        exact foreign (.inr (.inr ⟨r', manned, hired⟩))
      | retired _ _ sole ended _ =>
        obtain rfl := (sole s).mp manned
        rw [ended] at there
        cases there

end Workshop

end Workshare
