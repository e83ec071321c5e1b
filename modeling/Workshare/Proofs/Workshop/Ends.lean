import Workshare.Proofs.Workshop.Accounts

namespace Workshare

/-- How often a handler will still wait. -/
def Behaviour.pauses : Behaviour → Nat
  | .ends _ => 0
  | .sleeps _ next => next.pauses + 1
  | .waits next => next.pauses + 1

def HandlerStage.pauses : HandlerStage → Nat
  | .fresh => 0
  | .asleep _ next => next.pauses
  | .held next => next.pauses

/-- A handler that cannot go on: it sleeps, or no signal has been given to it. -/
inductive HandlerStage.Blocked (c : Cluster) (t : Ticket) : HandlerStage → Prop
  | asleep {wake : Nat} {next : Behaviour} : c.now < wake → Blocked c t (.asleep wake next)
  | held {next : Behaviour} : t ∉ c.gate.granted → Blocked c t (.held next)

theorem HandlerStage.news_ran {n : NodeId} {work : Work} {stage : HandlerStage} {g : Registry} {e : Event}
    (he : e ∈ stage.news g n work) : ∃ title, e = .ran n title work := by
  unfold HandlerStage.news at he
  split at he
  next =>
    obtain ⟨h, _, rfl⟩ := List.mem_map.mp he
    exact ⟨h.title, rfl⟩
  next => cases he

namespace Cluster

variable {n m : NodeId} {p : Pool} {t : Ticket} {c : Cluster} {work : Work} {task : Task} {y : Yield} {success : Bool}

theorem manager?_complete (pool : c.executor? n = some (.pool p)) (work : Work) (success : Bool) :
    (c.complete n work success).manager? n =
      (c.manager? n).map fun m => (m.complete p.free work.longRunning success).drain.2 := by
  rw [← free_of_pool pool]
  have same : (c.record (.completed n work success)).manager? n = c.manager? n := rfl
  unfold complete
  cases hm : c.manager? n with
  | none =>
    rw [tell_absent (same.trans hm)]
    exact same.trans hm
  | some m => exact manager?_tell (same.trans hm) _

/-- The manager of the node hears of a work that has run when its worker is back. -/
theorem manager?_retire (lone : c.Lone n p) (t : Ticket) (work : Work) (waiter : Option Ticket) (verdict : Verdict) :
    (c.retire t n work waiter verdict).manager? n = (c.manager? n).map fun m =>
      (m.complete (p.setLane work.longRunning (p.lane work.longRunning).giveBack.1).free work.longRunning
        verdict.isOk).drain.2 := by
  obtain ⟨back, answer⟩ := (Comes.start lone).withLane work.longRunning Lane.giveBack
  have manager := (withLane_rest (Prod.ext rfl answer) n).2.1
  unfold retire
  dsimp only at back ⊢
  revert back manager
  generalize c.withLane n work.longRunning Lane.giveBack = r
  obtain ⟨c₁, next⟩ := r
  intro back manager
  have hosts := (Aside.wakeAll c₁ (next.bind id).toList).hosts
  have told : ∀ success, ((c₁.wakeAll (next.bind id).toList).complete n work success).manager? n = _ :=
    manager?_complete ((executor?_congr hosts n).trans back.lone.executor?) work
  rw [manager?_congr hosts, manager] at told
  cases verdict with
  | ok done =>
    cases waiter with
    | none => exact told true
    | some w => exact (manager?_congr (Aside.wakeAll _ [w]).hosts n).trans (told true)
  | error fault =>
    cases waiter with
    | none => exact told false
    | some w => exact (manager?_congr (Aside.wakeAll _ [w]).hosts n).trans (told false)

theorem Misses.ungranted {mode : Mode} {since deadline : Nat} {l : Lane} {long : Bool}
    (misses : Misses n p t c task mode work since deadline l) (queued : task.hand = .queued n long) :
    t ∉ (p.lane long).granted := by
  cases misses with
  | asked _ => cases queued
  | collected collects =>
    cases queued
    intro granted
    unfold Lane.collect at collects
    rw [if_pos granted] at collects
    cases collects

/-- Only the task that holds the worker of a work reports its outcome, and by then the worker is back. -/
theorem Turnout.reports (turnout : Turnout n p t c task y) (said : .completed m work success ∈ y.news) :
    m = n ∧ ∃ waiter h verdict, task = .runner n work waiter (some h) ∧ c.verdicts.get? h = some verdict ∧
      success = verdict.isOk ∧ y.pool = p.setLane work.longRunning (p.lane work.longRunning).giveBack.1 := by
  cases turnout with
  | retired left =>
    cases List.mem_singleton.mp said
    exact ⟨rfl, _, _, _, rfl, left, rfl, rfl⟩
  | seeks seeks =>
    cases seeks with
    | hired _ => cases said
    | begun _ _ _ => cases List.mem_singleton.mp said
    | queued _ => cases said
    | rejected _ _ => cases List.mem_singleton.mp said
  | awaits _ => cases said
  | answered _ => cases List.mem_singleton.mp said
  | manned => cases said
  | attends _ => cases said
  | goes _ _ => cases (HandlerStage.news_ran said).choose_spec
  | ended => cases (HandlerStage.news_ran said).choose_spec

theorem Turnout.serves {long : Bool} (turnout : Turnout n p t c task y) (queued : task.hand = .queued n long)
    (granted : t ∈ (p.lane long).granted) : y.child.isSome ∧ y.left ≠ some task := by
  cases turnout with
  | seeks seeks =>
    cases seeks with
    | hired gets =>
      cases gets with
      | asked _ => cases queued
      | collected _ => exact ⟨rfl, nofun⟩
    | begun gets _ _ =>
      cases gets with
      | asked _ => cases queued
      | collected _ => exact ⟨rfl, nofun⟩
    | queued misses => exact absurd granted (misses.ungranted queued)
    | rejected misses _ => exact absurd granted (misses.ungranted queued)
  | awaits _ => cases queued
  | answered _ => cases queued
  | manned => cases queued
  | attends _ => cases queued
  | retired _ => cases queued
  | goes _ _ => cases queued
  | ended => cases queued

theorem pauses_follow (c : Cluster) (t : Ticket) {b : Behaviour} {stage : HandlerStage}
    (h : (c.follow t b).2 = .waits stage) : stage.pauses < b.pauses := by
  induction b generalizing c with
  | ends verdict => cases h
  | sleeps millis next ih =>
    unfold follow at h
    split at h
    next => exact Nat.lt_succ_of_lt (ih c h)
    next =>
      cases h
      exact Nat.lt_succ_self _
  | waits next ih =>
    unfold follow at h
    split at h
    next => exact Nat.lt_succ_of_lt (ih _ h)
    next =>
      cases h
      exact Nat.lt_succ_self _

/-- A handler that has come no further by its go cannot go on. -/
theorem blocked_of_still {stage : HandlerStage} (begun : stage ≠ .fresh)
    (still : (c.pollHandler t n work stage).2 = .waits stage) : stage.Blocked c t := by
  cases stage with
  | fresh => exact absurd rfl begun
  | asleep wake next =>
    rw [pollHandler] at still
    split at still
    next => exact absurd (pauses_follow c t still) (Nat.lt_irrefl _)
    next early => exact .asleep (Nat.lt_of_not_le early)
  | held next =>
    rw [pollHandler] at still
    by_cases granted : t ∈ c.gate.granted
    · unfold Lane.collect at still
      rw [if_pos granted] at still
      exact absurd (pauses_follow _ t still) (Nat.lt_irrefl _)
    · exact .held granted

theorem pollHandler_of_still {r : Ticket} {stage : HandlerStage}
    (still : (c.resume t (.handler n work (some r) stage)).tasks.get? t = some (.handler n work (some r) stage)) :
    (c.pollHandler t n work stage).2 = .waits stage := by
  rw [resume] at still
  revert still
  generalize c.pollHandler t n work stage = polled
  obtain ⟨c₁, progress⟩ := polled
  intro still
  cases progress with
  | waits stage' =>
    have parked : (c₁.park t (.handler n work (some r) stage')).tasks.get? t = some (.handler n work (some r) stage') :=
      (Table.get?_insert _ _ _ _).trans (if_pos rfl)
    have same := parked.symm.trans still
    cases same
    rfl
  | ends verdict =>
    have gone : (c₁.conclude t (some r) verdict).tasks.get? t = none := by
      show ((({ c₁ with verdicts := c₁.verdicts.insert t verdict } : Cluster).finish t none).wake r).tasks.get? t = none
      rw [(Rests.wake (n := n) _ r).tasks]
      exact (Table.get?_erase _ _ _).trans (if_pos rfl)
    have still : (c₁.conclude t (some r) verdict).tasks.get? t = _ := still
    rw [gone] at still
    cases still

end Cluster

namespace Workshop

/-- It was reported how a work ended: its worker was back, and the manager of the node has heard of it together with the
free workers as they are now. -/
structure Reports (w w' : Workshop) (n : NodeId) (work : Work) (success : Bool) : Prop where
  back : w'.cluster.lane n work.longRunning = (w.cluster.lane n work.longRunning).giveBack.1
  told : w'.cluster.manager? n =
    (w.cluster.manager? n).map fun m => (m.complete (w'.cluster.free n) work.longRunning success).drain.2

/-- The work of this task was handed a worker, or somebody was begun with one. -/
def Served (w : Workshop) (n : NodeId) (long : Bool) (t : Ticket) : Prop :=
  t ∈ (w.cluster.lane n long).granted ∨ ∃ u, w.parent u = some t

/-- Nobody gets any further. -/
def AtRest (w : Workshop) (n : NodeId) : Prop :=
  ∀ s, (w.take n (.go s)).task s = w.task s

/-- What there can be of a work when nobody gets any further. -/
inductive Rest (w : Workshop) (n : NodeId) (t : Ticket) (mode : Mode) (work : Work) : Prop
  | waits : t ∈ (w.cluster.lane n work.longRunning).waiting → Rest w n t mode work
  | rejected {reason : String} : w.Alone t → w.task t = none →
      w.cluster.told t = [.outcome (.ok (.error (.rejected reason)))] → Rest w n t mode work
  | blocked {r h : Ticket} {stage : HandlerStage} : w.Began t r → w.Began r h →
      w.task h = some (.handler n work (some r) stage) → stage.Blocked w.cluster h → Rest w n t mode work
  | finished {r : Ticket} {verdict : Verdict} : w.Began t r → w.Crew n work (mode.waiter t) r (some verdict) →
      w.task t = none → Rest w n t mode work

variable {w : Workshop} {n m : NodeId} {p q : Pool} {sizes : Bool → Nat} {t s r h : Ticket} {mode : Mode}
  {work : Work} {task : Task} {reported : Option Verdict} {success : Bool} {x : Chore} {y : Yield}

theorem log_take (w : Workshop) (x : Chore) {news : List (Nat × Option Ticket × Event)}
    (grown : (w.take n x).log = w.log ++ news) :
    news = ((w.cluster.tend n x).events.drop w.cluster.events.length).map (w.cluster.now, x.doer, ·) :=
  (List.append_cancel_left grown).symm

namespace Sound

/-- Whoever reports the outcome of a work has held its worker, which is back by then. -/
theorem reports (sound : w.Sound n p sizes) {news : List (Nat × Option Ticket × Event)}
    (grown : (w.take n x).log = w.log ++ news) {i : Nat} {doer : Option Ticket}
    (said : (i, doer, .completed m work success) ∈ news) :
    m = n ∧ w.Reports (w.take n x) n work success := by
  have logged : (i, doer, .completed m work success) ∈ (w.take n x).log := by
    rw [grown]
    exact List.mem_append_right _ said
  obtain ⟨_, _, owner, _⟩ := (sound.take x).owners i doer _ logged rfl
  rcases sound.turns x with idle | still | ⟨r, task, t, mode, own, q, y, rfl, move⟩
  · rw [log_take w x grown, idle] at said
    obtain ⟨_, _, same⟩ := List.mem_map.mp said
    cases same
    cases owner
  · rw [still] at grown
    rw [List.self_eq_append_right.mp grown] at said
    cases said
  · rw [log_take w _ grown] at said
    obtain ⟨e, he, same⟩ := List.mem_map.mp said
    cases same
    obtain ⟨more, events, loud⟩ := move.yields.events
    rw [tend_go move.there, events, List.drop_left] at he
    have he : .completed m work success ∈ y.news := by
      rw [← loud]
      exact List.mem_filter.mpr ⟨he, rfl⟩
    obtain ⟨rfl, waiter, h, verdict, rfl, left, rfl, pool⟩ := move.turnout.reports he
    refine ⟨rfl, ?_, ?_⟩
    · rw [move.goes.lane, pool, Pool.lane_setLane_self, move.lone.lane]
    · have lone : Cluster.Lone m q { w.cluster with verdicts := w.cluster.verdicts.erase h } := move.lone
      rw [Cluster.free_of_pool move.goes.lone.executor?, pool]
      show (w.cluster.tend m (.go r)).manager? m = _
      rw [tend_go move.there, Cluster.resume, Cluster.pollRunner, left]
      exact Cluster.manager?_retire lone r work waiter verdict

/-- A lane changes only when a task of one of its works goes on. -/
theorem apart (sound : w.Sound n p sizes) {long : Bool}
    (changed : (w.take n x).cluster.lane n long ≠ w.cluster.lane n long) :
    ∃ s t mode work, x = .go s ∧ w.orders.get? t = some (mode, work) ∧ w.Of t s ∧ work.longRunning = long := by
  rcases sound.turns x with idle | still | ⟨s, task, t, mode, work, q, y, rfl, move⟩
  · exact absurd (sound.lane_idle idle long) changed
  · rw [still] at changed
    exact absurd rfl changed
  · refine ⟨s, t, mode, work, rfl, move.ordered, move.of, ?_⟩
    rw [move.lone.lane, move.goes.lane] at changed
    rcases move.turnout.pool move.shape.belongs with same | ⟨l, pool, _⟩
    · rw [same] at changed
      exact absurd rfl changed
    · rw [pool, Pool.lane_setLane] at changed
      split at changed
      next own => exact own.symm
      next => exact absurd rfl changed

theorem ordered_take (sound : w.Sound n p sizes) {o : Mode × Work} (ordered : w.orders.get? t = some o) (x : Chore) :
    (w.take n x).orders.get? t = some o := by
  cases x with
  | submit mode work =>
    exact (Table.get?_insert _ _ _ _).trans ((if_neg (Nat.ne_of_lt (sound.older ordered))).trans ordered)
  | _ => exact ordered

/-- Whoever has been handed a worker keeps it until the work has begun. -/
theorem served_take (sound : w.Sound n p sizes) {long : Bool} (served : w.Served n long t) (x : Chore) :
    (w.take n x).Served n long t := by
  rcases sound.turns x with idle | still | ⟨s, task, _, _, _, q, y, rfl, move⟩
  · unfold Served
    simp only [sound.lane_idle idle, sound.parent_idle idle]
    exact served
  · rw [still]
    exact served
  · rcases served with granted | ⟨u, begun⟩
    · have moved := granted
      rw [move.lone.lane] at moved
      by_cases own : t = s
      · subst own
        obtain ⟨task', present, queued⟩ := (sound.mans long).others t (List.mem_append_right _ granted) nofun
        obtain rfl : task' = task := Option.some.inj (present.symm.trans move.there)
        exact .inr ⟨_, (move.goes.parent _).trans (if_pos ⟨rfl, (move.turnout.serves queued moved).1⟩)⟩
      · refine .inl ?_
        rw [move.goes.lane]
        exact (move.turnout.passes move.shape.belongs _).granted t own moved
    · exact .inr ⟨u, move.goes.parent_kept (sound.blank _ (Nat.le_refl _)) begun⟩

theorem ordered_run (sound : w.Sound n p sizes) {o : Mode × Work} (ordered : w.orders.get? t = some o)
    (chores : List Chore) : (w.run n chores).orders.get? t = some o := by
  induction chores generalizing w with
  | nil => exact ordered
  | cons x chores ih => exact ih (sound.take x) (sound.ordered_take ordered x)

theorem served_run (sound : w.Sound n p sizes) {long : Bool} (served : w.Served n long t) (chores : List Chore) :
    (w.run n chores).Served n long t := by
  induction chores generalizing w with
  | nil => exact served
  | cons x chores ih => exact ih (sound.take x) (sound.served_take served x)

/-- Whoever was told of a rejection has not been served. -/
theorem unserved (sound : w.Sound n p sizes) (ordered : w.orders.get? t = some (mode, work)) {reason : String}
    (rejected : w.cluster.told t = [.outcome (.ok (.error (.rejected reason)))]) : ¬ w.Served n work.longRunning t := by
  cases sound.fates t mode work ordered with
  | fresh _ _ untold _ _ => rw [untold] at rejected; cases rejected
  | queued _ _ untold _ _ _ => rw [untold] at rejected; cases rejected
  | rejected gone _ _ alone _ _ =>
    rintro (granted | ⟨u, begun⟩)
    · obtain ⟨task, present, _⟩ := (sound.mans work.longRunning).others t (List.mem_append_right _ granted) nofun
      have present : w.task t = some task := present
      rw [gone] at present
      cases present
    · exact alone u begun
  | accepted _ _ front =>
    cases front with
    | awaits _ _ _ untold _ => rw [untold] at rejected; cases rejected
    | @ended verdict _ _ _ _ told =>
      rw [told] at rejected
      cases verdict <;> cases rejected
    | begun _ _ _ told _ => rw [told] at rejected; cases rejected

/-- Whoever has asked and will be rejected waits in the queue, and was handed nothing. -/
theorem denied (sound : w.Sound n p sizes) (ordered : w.orders.get? t = some (mode, work)) (asked : (w.asked t).isSome)
    (untold : w.cluster.told t = []) (chores : List Chore) {reason : String}
    (rejected : (w.run n chores).cluster.told t = [.outcome (.ok (.error (.rejected reason)))]) :
    t ∈ (w.cluster.lane n work.longRunning).waiting := by
  have unserved : ¬ w.Served n work.longRunning t := fun served =>
    (sound.run chores).unserved (sound.ordered_run ordered chores) rejected (sound.served_run served chores)
  cases sound.fates t mode work ordered with
  | fresh _ _ _ _ unasked => rw [unasked] at asked; cases asked
  | queued _ _ _ _ _ line => exact line.resolve_right fun granted => unserved (.inl granted)
  | rejected _ _ told _ _ _ => rw [told] at untold; cases untold
  | @accepted r _ began _ _ => exact absurd (.inr ⟨r, (began r).mpr rfl⟩) unserved

theorem told_grows (sound : w.Sound n p sizes) (x : Chore) (t : Ticket) :
    w.cluster.told t <+: (w.take n x).cluster.told t := by
  rcases sound.turns x with idle | still | ⟨s, _, _, _, _, _, _, rfl, move⟩
  · rw [told_take]
    cases x with
    | submit _ _ => rfl
    | go _ => cases idle
    | clock _ _ => rfl
    | queue _ _ _ => rfl
    | release count => exact (Cluster.Rests.release (n := n) w.cluster count).answers
    | register name handler =>
      show (w.cluster.register n name handler).answers = _
      unfold Cluster.register
      split
      next => rfl
      next => rfl
  · rw [still]
  · rw [move.goes.told]
    exact List.prefix_append _ _

theorem told_grows_run (sound : w.Sound n p sizes) (chores : List Chore) (t : Ticket) :
    w.cluster.told t <+: (w.run n chores).cluster.told t := by
  induction chores generalizing w with
  | nil => exact List.prefix_refl _
  | cons x chores ih => exact (sound.told_grows x t).trans (ih (sound.take x))

theorem told_le (sound : w.Sound n p sizes) (ordered : w.orders.get? t = some (mode, work)) :
    (w.cluster.told t).length ≤ 1 := by
  cases sound.fates t mode work ordered with
  | fresh _ _ untold _ _ => rw [untold]; exact Nat.zero_le 1
  | queued _ _ untold _ _ _ => rw [untold]; exact Nat.zero_le 1
  | rejected _ _ told _ _ _ => rw [told]; exact Nat.le_refl 1
  | accepted _ _ front =>
    cases front with
    | awaits _ _ _ untold _ => rw [untold]; exact Nat.zero_le 1
    | ended _ _ _ told => rw [told]; exact Nat.le_refl 1
    | begun _ _ _ told _ => rw [told]; exact Nat.le_refl 1

/-- What the caller of a work has been told stays the last word. -/
theorem lasting (sound : w.Sound n p sizes) (ordered : w.orders.get? t = some (mode, work)) {a : Answer}
    (told : w.cluster.told t = [a]) (chores : List Chore) : (w.run n chores).cluster.told t = [a] := by
  have grown := sound.told_grows_run chores t
  have short := (sound.run chores).told_le (sound.ordered_run ordered chores)
  rw [told] at grown
  exact (grown.eq_of_length_le short).symm

theorem left_of_rest (rest : w.AtRest n) (move : w.Move n p s task t mode work q y) : y.left = some task :=
  move.goes.own_task.symm.trans ((rest s).trans move.there)

theorem blocked_of_rest (rest : w.AtRest n) {stage : HandlerStage} (begun : stage ≠ .fresh)
    (there : w.task h = some (.handler n work (some r) stage)) : stage.Blocked w.cluster h := by
  have same : (w.cluster.tend n (.go h)).tasks.get? h = some (.handler n work (some r) stage) := (rest h).trans there
  rw [tend_go there] at same
  exact Cluster.blocked_of_still begun (Cluster.pollHandler_of_still same)

/-- When nobody gets any further, the handler of a work that was accepted is blocked, or its outcome was reported. -/
theorem crew_of_rest (sound : w.Sound n p sizes) (rest : w.AtRest n) {waiter : Option Ticket}
    (crew : w.Crew n work waiter r reported) :
    (∃ verdict, reported = some verdict) ∨ ∃ h stage, w.Began r h ∧
      w.task h = some (.handler n work (some r) stage) ∧ stage.Blocked w.cluster h := by
  cases crew with
  | hired own _ _ =>
    obtain ⟨_, _, _, _, _, move⟩ := sound.move own
    have left := left_of_rest rest move
    cases move.turnout with
    | seeks seeks => exact absurd seeks.isSeeker nofun
    | manned => cases left
  | manned own _ sole handling =>
    cases handling with
    | fresh there _ _ =>
      obtain ⟨_, _, _, _, _, move⟩ := sound.move there
      have left := left_of_rest rest move
      cases move.turnout with
      | seeks seeks => exact absurd seeks.isSeeker nofun
      | goes _ begun => cases left; exact absurd rfl begun
      | ended => cases left
    | going there begun _ _ _ => exact .inr ⟨_, _, sole, there, blocked_of_rest rest begun there⟩
    | finished _ _ posted =>
      obtain ⟨_, _, _, _, _, move⟩ := sound.move own
      have left := left_of_rest rest move
      cases move.turnout with
      | seeks seeks => exact absurd seeks.isSeeker nofun
      | attends nothing => cases posted.symm.trans nothing
      | retired _ => cases left
  | retired _ _ _ _ _ => exact .inl ⟨_, rfl⟩

theorem rests (sound : w.Sound n p sizes) (rest : w.AtRest n) (ordered : w.orders.get? t = some (mode, work)) :
    w.Rest n t mode work := by
  cases sound.fates t mode work ordered with
  | fresh own _ _ _ _ =>
    obtain ⟨_, _, _, _, _, move⟩ := sound.move own
    have left := left_of_rest rest move
    cases move.turnout with
    | seeks seeks => cases seeks <;> cases left
  | queued own _ _ _ _ line =>
    refine .waits (line.resolve_right fun granted => ?_)
    obtain ⟨_, _, _, _, _, move⟩ := sound.move own
    rw [move.lone.lane] at granted
    exact (move.turnout.serves rfl granted).2 (left_of_rest rest move)
  | rejected gone _ told alone _ _ => exact .rejected alone gone told
  | accepted began crew front =>
    rcases sound.crew_of_rest rest crew with ⟨verdict, rfl⟩ | ⟨h, stage, sole, there, blocked⟩
    · refine .finished began crew ?_
      cases front with
      | awaits _ own _ _ posted =>
        obtain ⟨_, _, _, _, _, move⟩ := sound.move own
        have left := left_of_rest rest move
        cases move.turnout with
        | seeks seeks => exact absurd seeks.isSeeker nofun
        | awaits nothing => cases posted.symm.trans nothing
        | answered _ => cases left
      | ended _ gone _ _ => exact gone
      | begun _ gone _ _ _ => exact gone
    · exact .blocked began sole there blocked

variable {settings : PoolSettings} {handlers : Registry}

theorem start (opened : Pool.start settings handlers = .ok p) (n : NodeId) (manager : Option Manager)
    (limit : Duration) : (Workshop.start n ⟨.pool p, manager, .start n, limit⟩).Sound n p settings.workers := by
  generalize hw : Workshop.start n ⟨.pool p, manager, .start n, limit⟩ = w
  have cluster : w.cluster = .start [(n, ⟨.pool p, manager, .start n, limit⟩)] := hw ▸ rfl
  have host : w.cluster.host? n = some ⟨.pool p, manager, .start n, limit⟩ := by
    rw [cluster]
    exact (Table.get?_insert _ _ _ _).trans (if_pos rfl)
  have sizes : ∀ long, (p.lane long).free = settings.workers long := by
    intro long
    rw [Pool.lane_start opened]
    rfl
  have blank : ∀ v, w.Blank v := by
    subst hw
    exact fun v => ⟨rfl, rfl, rfl, rfl, rfl, rfl, nofun, rfl⟩
  have silent : w.log = [] := hw ▸ rfl
  refine ⟨⟨p, ⟨manager, .start n, limit, host, rfl⟩, rfl⟩, fun v _ => blank v, ?_, ?_, ?_, ?_, ?_, ?_⟩
  · intro t o ordered
    rw [(blank t).order] at ordered
    cases ordered
  · intro t mode work ordered
    rw [(blank t).order] at ordered
    cases ordered
  · intro v task there
    rw [(blank v).task] at there
    cases there
  · intro i doer e he
    rw [silent] at he
    cases he
  · rw [silent, cluster]
    rfl
  · rw [cluster] at host ⊢
    have staffed := Cluster.staffed_start host rfl fun long => by rw [Pool.lane_start opened]; rfl
    rw [funext sizes] at staffed
    exact staffed

theorem free_toNat (sound : w.Sound n p settings.workers) (long : Bool) :
    ((w.cluster.free n).ofPool long).toNat = (w.cluster.lane n long).free := by
  obtain ⟨q, lone, _⟩ := sound.lone
  have small : (w.cluster.lane n long).free < UInt64.size :=
    Nat.lt_of_le_of_lt (sound.mans long).free_le (settings.workers_lt long)
  rw [Cluster.free_of_pool lone.executor?, Pool.free_ofPool, ← lone.lane]
  exact Nat.mod_eq_of_lt small

end Sound

/-- The account of a pool of node `n` which was opened with these settings. -/
structure Accounted (w : Workshop) (n : NodeId) (settings : PoolSettings) (p : Pool) : Prop where
  /-- Each worker of a lane is free, or one work holds it. -/
  workers : ∀ long, ((w.cluster.free n).ofPool long).toNat + (w.holders n long).card = settings.workers long
  waits : ∀ long, (w.cluster.lane n long).waiting ≠ [] → (w.cluster.free n).ofPool long = 0
  /-- A lane changes only by a go at a task of one of its works. -/
  apart : ∀ x long, (w.take n x).cluster.lane n long ≠ w.cluster.lane n long →
    ∃ s t mode work, x = .go s ∧ w.orders.get? t = some (mode, work) ∧ w.Of t s ∧ work.longRunning = long
  fates : ∀ t mode work, w.orders.get? t = some (mode, work) → w.Fate n p t mode work
  single : ∀ t t' v, (w.orders.get? t).isSome → (w.orders.get? t').isSome → w.Of t v → w.Of t' v → t = t'
  /-- Whatever happened of works was done by the task of one that was asked for. -/
  owners : ∀ i doer e, (i, doer, e) ∈ w.log → e.isEffect = false →
    ∃ v t, doer = some v ∧ (w.orders.get? t).isSome ∧ w.Of t v
  events : w.log.map (·.2.2) = w.cluster.events
  reports : ∀ x news i doer m work success, (w.take n x).log = w.log ++ news →
    (i, doer, .completed m work success) ∈ news → m = n ∧ w.Reports (w.take n x) n work success
  /-- Whoever has asked and will be rejected waits in the queue. -/
  denied : ∀ t mode work chores reason, w.orders.get? t = some (mode, work) → (w.asked t).isSome →
    w.cluster.told t = [] → (w.run n chores).cluster.told t = [.outcome (.ok (.error (.rejected reason)))] →
    t ∈ (w.cluster.lane n work.longRunning).waiting
  lasting : ∀ t mode work chores a, w.orders.get? t = some (mode, work) → w.cluster.told t = [a] →
    (w.run n chores).cluster.told t = [a]
  rests : w.AtRest n → ∀ t mode work, w.orders.get? t = some (mode, work) → w.Rest n t mode work

/-- Whatever works a pool is given, whenever they go on and however they end: no worker is lost, and each work is run
and reported once, or rejected. -/
theorem works_accounted {settings : PoolSettings} {handlers : Registry} (opened : Pool.start settings handlers = .ok p)
    (n : NodeId) (manager : Option Manager) (limit : Duration) (chores : List Chore) :
    ((Workshop.start n ⟨.pool p, manager, .start n, limit⟩).run n chores).Accounted n settings p := by
  have sound := (Sound.start opened n manager limit).run chores
  revert sound
  generalize (Workshop.start n ⟨.pool p, manager, .start n, limit⟩).run n chores = w
  intro sound
  refine ⟨?_, ?_, fun _ _ => sound.apart, sound.fates, ?_, sound.owners, sound.events, ?_, ?_, ?_, ?_⟩
  · intro long
    rw [sound.free_toNat]
    exact sound.conserved long
  · intro long some
    refine UInt64.toNat_inj.mp ?_
    rw [sound.free_toNat]
    exact (sound.mans long).idle some
  · intro t t' v mine mine' of of'
    obtain ⟨o, ordered⟩ := Option.isSome_iff_exists.mp mine
    obtain ⟨o', ordered'⟩ := Option.isSome_iff_exists.mp mine'
    exact of.unique of' (sound.roots t o ordered) (sound.roots t' o' ordered')
  · exact fun _ _ _ _ _ _ _ grown said => sound.reports grown said
  · exact fun _ _ _ chores _ ordered asked untold rejected => sound.denied ordered asked untold chores rejected
  · exact fun _ _ _ chores _ ordered told => sound.lasting ordered told chores
  · exact fun rest _ _ _ ordered => sound.rests rest ordered

/-- One worker of each kind, and a handler that panics. -/
def frail : Pool :=
  ⟨.ofSize 1, .ofSize 1, .ofMillis 1000, .ofList [("panics", ⟨"panics", fun _ => .ends (.error (.panicked "boom"))⟩)]⟩

def doomed (name : String) : Work :=
  ⟨⟨name⟩, "panics", .null, false, false⟩

/-- A work gets the worker and another one waits for it. The first one panics, and the worker goes to the other. -/
def panic : Workshop :=
  (start ⟨"a"⟩ ⟨.pool frail, none, .start ⟨"a"⟩, .ofMillis 5000⟩).run ⟨"a"⟩
    [.submit .run (doomed "v"), .go 0, .submit .schedule (doomed "z"), .go 2, .go 1, .go 3, .go 1]

theorem works_accounted_panic :
    panic.Accounted ⟨"a"⟩ ⟨1, 1, .ofMillis 1000⟩ frail ∧ panic.cluster.lane ⟨"a"⟩ false = ⟨0, [], [2]⟩ ∧
      panic.holders ⟨"a"⟩ false = {2} := by
  refine ⟨works_accounted rfl ⟨"a"⟩ none (.ofMillis 5000) _, ?_, ?_⟩
  · decide +kernel
  · decide +kernel

end Workshop

end Workshare
