import Workshare.Cluster.Step
import Workshare.Proofs.Cluster.Service

namespace Workshare

open Wire

namespace Cluster

/-- A go at task `t`: what was loud in it, what is left of the task, and what it has answered. -/
structure Turn (t : Ticket) (c c' : Cluster) (loud : List Event) (left : Option Task) (said : Option Answer) :
    Prop extends Change (some t) c c' loud where
  task : c'.tasks.get? t = left
  answers : c'.answers = c.answers ++ (said.map (t, ·)).toList

variable {c c₁ c₂ : Cluster} {t : Ticket} {loud loud' : List Event} {left : Option Task} {said : Option Answer}

theorem Works.turn (h : Works c c₁ loud) {t : Ticket} {left : Option Task} {said : Option Answer}
    (tasks : ∀ v, c₂.tasks.get? v = if v = t then left else c₁.tasks.get? v)
    (answers : c₂.answers = c₁.answers ++ (said.map (t, ·)).toList) (fresh : c₂.fresh = c₁.fresh)
    (events : c₂.events = c₁.events) (hosts : c₂.hosts = c₁.hosts) : Turn t c c₂ loud left said := by
  have other : ∀ v, some t ≠ some v → c₂.tasks.get? v = c₁.tasks.get? v := by
    intro v hne
    rw [tasks, if_neg fun he => hne (congrArg some he.symm)]
  refine ⟨⟨?_, ?_, ?_, ?_, ?_, ?_⟩, ?_, ?_⟩
  · rw [fresh]
    exact h.fresh
  · intro v hv hne
    rw [other v hne, h.kept v hv nofun]
  · intro v task hne hv
    rw [other v hne] at hv
    rw [fresh]
    exact h.newcomers v task nofun hv
  · rw [events]
    exact h.events
  · rw [hosts]
    exact h.hosts
  · intro n x hn
    rw [hosts] at hn
    exact h.sane n x hn
  · rw [tasks, if_pos rfl]
  · rw [answers, h.answers]

theorem Works.park (h : Works c c₁ loud) (t : Ticket) (task : Task) :
    Turn t c (c₁.park t task) loud (some task) none :=
  h.turn (fun _ => Table.get?_insert _ _ _ _) (List.append_nil _).symm rfl rfl rfl

theorem Works.finish (h : Works c c₁ loud) (t : Ticket) (said : Option Answer) :
    Turn t c (c₁.finish t said) loud none said :=
  h.turn (fun _ => Table.get?_erase _ _ _) rfl rfl rfl rfl

namespace Turn

theorem after (w : Works c c₁ loud) (h : Turn t c₁ c₂ loud' left said) : Turn t c c₂ (loud ++ loud') left said :=
  ⟨(w.of_none (some t)).trans h.toChange, h.task, by rw [h.answers, w.answers]⟩

theorem before (h : Turn t c c₁ loud left said) (ht : t < c.fresh) (w : Works c₁ c₂ []) :
    Turn t c c₂ loud left said := by
  have both := h.toChange.trans (w.of_none (some t))
  rw [List.append_nil] at both
  refine ⟨both, ?_, w.answers.trans h.answers⟩
  rw [w.kept t (Nat.lt_of_lt_of_le ht h.fresh) nofun, h.task]

end Turn

/-- Such a task is over, or it will hand over no work later either. -/
def Calm (t : Ticket) (c c' : Cluster) : Prop :=
  ∃ left said, Turn t c c' [] left said ∧ ∀ task, left = some task → task.Harmless

namespace Calm

theorem finished (h : Works c c₁ []) (t : Ticket) (said : Option Answer) : Calm t c (c₁.finish t said) :=
  ⟨none, said, h.finish t said, fun _ he => (by cases he)⟩

theorem parked (h : Works c c₁ []) (t : Ticket) {task : Task} (ht : task.Harmless) : Calm t c (c₁.park t task) :=
  ⟨some task, none, h.park t task, fun _ he => (by cases he; exact ht)⟩

theorem after (w : Works c c₁ []) (h : Calm t c₁ c₂) : Calm t c c₂ := by
  obtain ⟨left, said, turn, harmless⟩ := h
  exact ⟨left, said, turn.after w, harmless⟩

theorem before (h : Calm t c c₁) (ht : t < c.fresh) (w : Works c₁ c₂ []) : Calm t c c₂ := by
  obtain ⟨left, said, turn, harmless⟩ := h
  exact ⟨left, said, turn.before ht w, harmless⟩

end Calm

theorem idle_freeRequest (long : Bool) :
    Idle ((freeRequest long).encode .string).1 ((freeRequest long).encode .string).2 := by
  cases long with
  | true => exact Request.idle_of_ne_join rfl (by simp [freeRequest, Request.operation])
  | false => exact Request.idle_of_ne_join rfl (by simp [freeRequest, Request.operation])

theorem works_refreshed (hs : c.Sane) (n peer : NodeId) (long : Bool) (r : Except WorkError Reply) :
    Works c (c.refreshed n peer long r) [] := by
  unfold refreshed
  split
  next => exact works_tell hs n fun m => Murmurs.hear m (.free peer long _)
  next => exact .refl hs

theorem calm_refreshLong (hs : c.Sane) (t : Ticket) (n peer : NodeId) : Calm t c (c.refreshLong t n peer) := by
  have called := call_idle hs t n peer (idle_freeRequest true)
  unfold refreshLong
  revert called
  generalize c.call t n peer (freeRequest true) = r
  obtain ⟨c₁, p⟩ := r
  intro called
  cases p with
  | waits call =>
    obtain ⟨more, works, ⟨hmore, hx⟩, rfl, ht⟩ := called
    obtain rfl : more = [] := hmore
    exact .parked works t ⟨hx, ht, rfl⟩
  | ends r =>
    obtain ⟨more, works, hmore⟩ := called
    obtain rfl : more = [] := hmore
    exact .finished (works.after (works_refreshed works.sane n peer true r)) t none

theorem calm_replied (hs : c.Sane) (t : Ticket) (peer : NodeId) {purpose : Purpose} (hp : purpose.isSubmit = false)
    (r : Except WorkError Reply) : Calm t c (c.replied t peer purpose r) := by
  cases purpose with
  | submit mode => cases hp
  | ping since => exact .finished (.refl hs) t _
  | free => exact .finished (.refl hs) t _
  | refresh n long =>
    have told := works_refreshed hs n peer long r
    cases long with
    | true => exact .finished told t none
    | false => exact .after told (calm_refreshLong told.sane t n peer)

theorem calm_beginCall (hs : c.Sane) (t : Ticket) (n peer : NodeId) {request : Request String} {purpose : Purpose}
    (hi : Idle (request.encode .string).1 (request.encode .string).2) (hp : purpose.isSubmit = false) :
    Calm t c (c.beginCall t n peer request purpose) := by
  have called := call_idle hs t n peer hi
  unfold beginCall
  revert called
  generalize c.call t n peer request = r
  obtain ⟨c₁, p⟩ := r
  intro called
  cases p with
  | waits call =>
    obtain ⟨more, works, ⟨hmore, hx⟩, rfl, ht⟩ := called
    obtain rfl : more = [] := hmore
    exact .parked works t ⟨hx, ht, hp⟩
  | ends r =>
    obtain ⟨more, works, hmore⟩ := called
    obtain rfl : more = [] := hmore
    exact .after works (calm_replied works.sane t peer hp r)

theorem calm_call (hs : c.Sane) (t : Ticket) {call : Call} {purpose : Purpose}
    (h : (Task.call call purpose).Harmless) : Calm t c (c.resume t (.call call purpose)) := by
  obtain ⟨hx, ht, hp⟩ := h
  have called := pollCall_idle hs t hx ht
  rw [resume]
  revert called
  generalize c.pollCall t call = r
  obtain ⟨c₁, p⟩ := r
  intro called
  cases p with
  | waits call' =>
    obtain ⟨more, works, ⟨hmore, hx'⟩, hpeer, ht'⟩ := called
    obtain rfl : more = [] := hmore
    rw [← hpeer] at ht'
    exact .parked works t ⟨hx', ht', hp⟩
  | ends r =>
    obtain ⟨more, works, hmore⟩ := called
    obtain rfl : more = [] := hmore
    exact .after works (calm_replied works.sane t call.peer hp r)

theorem calm_deliver (hs : c.Sane) (t : Ticket) (target : String) {op : UInt16} {body : List UInt8}
    (hi : Idle op body) : Calm t c (c.deliver t target op body) := by
  obtain ⟨c₁, bytes, he, works⟩ := serve_idle hs t ⟨target⟩ hi
  unfold deliver
  rw [he]
  exact .finished works t none

theorem calm_retire (hs : c.Sane) (ht : t < c.fresh) (n : NodeId) (work : Work) (waiter : Option Ticket)
    (verdict : Verdict) : Calm t c (c.retire t n work waiter verdict) := by
  have back := works_withLane hs n work.longRunning Lane.giveBack
  unfold retire
  revert back
  generalize c.withLane n work.longRunning Lane.giveBack = r
  obtain ⟨c₁, next⟩ := r
  intro back
  have woken := back.after (Works.wakeAll back.sane (next.bind id).toList)
  dsimp only
  generalize done : (c₁.wakeAll (next.bind id).toList).complete n work _ = c₂
  -- the worker is free before the end is told, and the waiter is woken by a task that is over
  have told : Works c c₂ [] := by
    rw [← done]
    exact woken.after (works_complete woken.sane n work _)
  split
  next w =>
    have kept : Works c { c₂ with verdicts := c₂.verdicts.insert t verdict } [] :=
      told.after (.of_eq told.sane (Nat.le_refl _) rfl rfl rfl rfl)
    exact Calm.before (.finished kept t none) ht (.wake (kept.finish t none).sane w)
  next => exact .finished told t none

theorem calm_runner (hs : c.Sane) (ht : t < c.fresh) (n : NodeId) (work : Work) (waiter handler : Option Ticket) :
    Calm t c (c.pollRunner t n work waiter handler) := by
  cases handler with
  | none =>
    have spawned : Works c (c.spawn (.handler n work (some t) .fresh)).1 [] := .spawn hs trivial
    exact .parked spawned t trivial
  | some h =>
    rw [pollRunner]
    split
    next verdict _ =>
      have erased : Works c { c with verdicts := c.verdicts.erase h } [] := .of_eq hs (Nat.le_refl _) rfl rfl rfl rfl
      exact .after erased (calm_retire erased.sane (Nat.lt_of_lt_of_le ht erased.fresh) n work waiter verdict)
    next => exact .parked (.refl hs) t trivial

theorem calm_conclude (hs : c.Sane) (ht : t < c.fresh) (runner : Option Ticket) (verdict : Verdict) :
    Calm t c (c.conclude t runner verdict) := by
  cases runner with
  | none => exact .finished (.refl hs) t _
  | some r =>
    have kept : Works c { c with verdicts := c.verdicts.insert t verdict } [] := .of_eq hs (Nat.le_refl _) rfl rfl rfl rfl
    exact Calm.before (.finished kept t none) ht (.wake (kept.finish t none).sane r)

theorem calm_resume (hs : c.Sane) (ht : t < c.fresh) {task : Task} (h : task.Harmless) : Calm t c (c.resume t task) := by
  cases task with
  | submit n mode work routed => exact h.elim
  | ask n peer request purpose => exact calm_beginCall hs t n peer h.1 h.2
  | serve n op body => exact h.elim
  | errand e client => exact h.elim
  | call call purpose => exact calm_call hs t h
  | broadcast sender targets op body => exact .finished (works_post hs sender targets h) t none
  | post target op body delay =>
    rw [resume]
    split
    next => exact calm_deliver hs t target h
    next => exact .parked (.setTimer hs t .stage _) t h
  | deliver target op body arrival =>
    rw [resume]
    split
    next => exact calm_deliver hs t target h
    next => exact .parked (.refl hs) t h
  | refresh n peer =>
    rw [resume]
    split
    next => exact calm_beginCall hs t n peer (idle_freeRequest false) rfl
    next => exact .finished (.refl hs) t none
  | runner n work waiter handler => exact calm_runner hs ht n work waiter handler
  | handler n work runner stage =>
    have polled := works_pollHandler hs t n work stage
    rw [resume]
    revert polled
    generalize c.pollHandler t n work stage = r
    obtain ⟨c₁, p⟩ := r
    intro polled
    cases p with
    | waits stage => exact .parked polled t trivial
    | ends verdict => exact .after polled (calm_conclude polled.sane (Nat.lt_of_lt_of_le ht polled.fresh) runner verdict)

end Cluster

end Workshare
