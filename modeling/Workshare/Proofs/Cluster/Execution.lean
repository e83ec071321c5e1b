import Workshare.Proofs.Cluster.Frame

namespace Workshare

/-- What an executor can say about a work: a delay if its start is waited for, and never that a dispatch failed. -/
structure Outcome.Proper (mode : Mode) (outcome : Outcome) : Prop where
  delay : ∀ d, outcome = .ok d → (d.isSome ↔ mode = .start)
  own : ∀ n e, outcome ≠ .error (.distribution n e)

namespace Outcome.Proper

theorem of_ok {mode : Mode} {d : Option UInt64} (h : d.isSome ↔ mode = .start) : Outcome.Proper mode (.ok d) :=
  ⟨fun _ e => (by cases e; exact h), fun _ _ e => (by cases e)⟩

theorem of_error {mode : Mode} {e : WorkError} (h : ∀ n ce, e ≠ .distribution n ce) : Outcome.Proper mode (.error e) :=
  ⟨fun _ e => (by cases e), fun n ce he => h n ce (Except.error.inj he)⟩

end Outcome.Proper

/-- Only a work whose end is waited for waits for its end. -/
def Errand.Sound (e : Errand) : Prop :=
  ∀ runner, e.wait = .finish runner → e.mode = .run

namespace Cluster

/-- What has become of an errand after one go: it is still the same one, or it has ended with a word of the
executor. -/
def Goes (c : Cluster) (e : Errand) (loud : List Event) : Cluster × Progress Errand Outcome → Prop
  | (c', .waits e') =>
    Works c c' loud ∧ e'.host = e.host ∧ e'.mode = e.mode ∧ e'.work = e.work ∧ e'.Sound
  | (c', .ends outcome) => Works c c' (loud ++ [.answered e.host e.mode outcome]) ∧ outcome.Proper e.mode

theorem Goes.after {c c₁ : Cluster} {e : Errand} {loud loud' : List Event} {r : Cluster × Progress Errand Outcome}
    (hw : Works c c₁ loud) (h : Goes c₁ e loud' r) : Goes c e (loud ++ loud') r := by
  obtain ⟨c', p⟩ := r
  cases p with
  | waits e' => exact ⟨hw.trans h.1, h.2⟩
  | ends outcome =>
    refine ⟨?_, h.2⟩
    have both := hw.trans h.1
    rwa [← List.append_assoc] at both

theorem Goes.of_eq {c : Cluster} {e e' : Errand} {loud : List Event} {r : Cluster × Progress Errand Outcome}
    (h : Goes c e' loud r) (hh : e'.host = e.host) (hm : e'.mode = e.mode) (hw : e'.work = e.work) :
    Goes c e loud r := by
  obtain ⟨c', p⟩ := r
  cases p with
  | waits x =>
    obtain ⟨works, h₁, h₂, h₃, sound⟩ := h
    exact ⟨works, h₁.trans hh, h₂.trans hm, h₃.trans hw, sound⟩
  | ends outcome =>
    obtain ⟨works, proper⟩ := h
    rw [hh, hm] at works
    rw [hm] at proper
    exact ⟨works, proper⟩

variable {c : Cluster}

theorem works_withLane {α : Type} (hs : c.Sane) (n : NodeId) (long : Bool) (f : Lane → Lane × α) :
    Works c (c.withLane n long f).1 [] := by
  unfold withLane
  split
  next hh =>
    have sane := hs n _ hh
    exact .setHost hs hh ⟨sane.fits, sane.manager, sane.book⟩
  next => exact .refl hs

theorem works_complete (hs : c.Sane) (n : NodeId) (work : Work) (success : Bool) :
    Works c (c.complete n work success) [] := by
  have recorded : Works c (c.record (.completed n work success)) [] := .record hs _
  exact recorded.after (works_tell recorded.sane n fun m => Murmurs.move m (x := .complete _ _ _) rfl)

theorem goes_settle (hs : c.Sane) (e : Errand) {outcome : Outcome} (h : outcome.Proper e.mode) :
    Goes c e [] (c.settle e outcome) := by
  have recorded : Works c (c.record (.answered e.host e.mode outcome)) [.answered e.host e.mode outcome] :=
    .record hs _
  exact ⟨recorded.before (works_tell recorded.sane e.host fun m => Murmurs.record m _), h⟩

theorem proper_script (s : Script) (mode : Mode) : (s.outcome mode).Proper mode := by
  unfold Script.outcome
  split
  next => exact .of_error fun _ _ => by simp
  next =>
    cases mode with
    | run =>
      dsimp only
      split
      next => exact .of_error fun _ _ => by simp
      next => exact .of_ok (by simp)
    | start => exact .of_ok (by simp)
    | schedule => exact .of_ok (by simp)

theorem goes_readScript (hs : c.Sane) (e : Errand) (s : Script) : Goes c e [] (c.readScript e s) := by
  unfold readScript
  dsimp only
  split
  next success _ =>
    have told := works_complete hs e.host e.work success
    exact (goes_settle told.sane e (proper_script s e.mode)).after told
  next => exact goes_settle hs e (proper_script s e.mode)

theorem goes_begin (hs : c.Sane) (t : Ticket) (e : Errand) (since : Nat) : Goes c e [] (c.begin t e since) := by
  have runs : ∀ waiter, Works c (c.spawn (.runner e.host e.work waiter none)).1 [] := fun _ => .spawn hs trivial
  unfold begin
  split
  next hm =>
    refine ⟨runs (some t), rfl, rfl, rfl, ?_⟩
    intro _ _
    exact hm
  next hm => exact (goes_settle (runs none).sane e (.of_ok (by simp [hm]))).after (runs none)
  next hm => exact (goes_settle (runs none).sane e (.of_ok (by simp [hm]))).after (runs none)

theorem goes_reject (hs : c.Sane) (t : Ticket) (e : Errand) (p : Pool) : Goes c e [] (c.reject t e p) := by
  have quit := works_withLane hs e.host e.work.longRunning (·.quit t)
  unfold reject
  revert quit
  generalize c.withLane e.host e.work.longRunning (·.quit t) = r
  obtain ⟨c₁, next⟩ := r
  intro quit
  have woken := quit.after (Works.wakeAll quit.sane (next.bind id).toList)
  exact (goes_settle woken.sane e (.of_error fun _ _ => by simp)).after woken

theorem goes_pollErrand (hs : c.Sane) (t : Ticket) {e : Errand} (he : e.Sound) : Goes c e [] (c.pollErrand t e) := by
  have still : Goes c e [] (c, .waits e) := ⟨.refl hs, rfl, rfl, rfl, he⟩
  unfold pollErrand
  split
  next =>
    split
    next => exact goes_readScript hs e _
    next => exact still
  next p _ _ =>
    have collected := works_withLane hs e.host e.work.longRunning (·.collect t)
    split
    next c₁ hc =>
      rw [hc] at collected
      have cancelled := collected.after (Works.cancel collected.sane t .stage)
      exact (goes_begin cancelled.sane t e _).after cancelled
    next c₁ _ _ hc =>
      rw [hc] at collected
      split
      next => exact (goes_reject collected.sane t e p).after collected
      next => exact ⟨collected, rfl, rfl, rfl, he⟩
  next runner hw =>
    have hm := he runner hw
    split
    next verdict _ =>
      have erased : Works c { c with verdicts := c.verdicts.erase runner } [] := .of_eq hs (Nat.le_refl _) rfl rfl rfl rfl
      refine (goes_settle erased.sane e ?_).after erased
      cases verdict with
      | ok _ => exact .of_ok (by simp [hm])
      | error fault => exact .of_error fun _ _ => by simp
    next => exact still
  next => exact still

/-- A host that is there has an executor, which says exactly one word about each work that it gets. -/
theorem goes_execute (hs : c.Sane) {n : NodeId} (hn : c.hosts.contains n) (t : Ticket) (mode : Mode) (work : Work)
    (wait : Wait) : Goes c ⟨n, mode, work, wait⟩ [] (c.execute t n mode work) := by
  obtain ⟨h, hh⟩ := Option.isSome_iff_exists.mp hn
  have sound : ∀ w : Wait, (∀ r, w ≠ .finish r) → Errand.Sound ⟨n, mode, work, w⟩ :=
    fun w hw r hr => absurd hr (hw r)
  unfold execute
  split
  next s _ =>
    dsimp only
    split
    next => exact (goes_readScript hs _ s).of_eq rfl rfl rfl
    next => exact ⟨.setTimer hs t .stage _, rfl, rfl, rfl, sound _ (by simp)⟩
  next p _ =>
    have asked := works_withLane hs n work.longRunning (·.ask t)
    dsimp only
    split
    next c₁ hc =>
      rw [hc] at asked
      exact ((goes_begin asked.sane t _ _).after asked).of_eq rfl rfl rfl
    next c₁ _ _ hc =>
      rw [hc] at asked
      split
      next => exact ((goes_reject asked.sane t _ p).after asked).of_eq rfl rfl rfl
      next =>
        have timed := asked.after (Works.setTimer asked.sane t .stage (c.now + p.startTimeout.millis))
        exact ⟨timed, rfl, rfl, rfl, sound _ (by simp)⟩
  next hx =>
    have hh : c.host? n = some h := hh
    rw [executor?, hh] at hx
    cases hx

theorem works_abandon (hs : c.Sane) (t : Ticket) (e : Errand) : Works c (c.abandon t e) [] := by
  unfold abandon
  split
  next =>
    have quit := works_withLane hs e.host e.work.longRunning (·.quit t)
    exact quit.after (Works.wakeAll quit.sane _)
  next => exact .refl hs
  next => exact .record hs _

theorem works_follow (hs : c.Sane) (t : Ticket) (b : Behaviour) : Works c (c.follow t b).1 [] := by
  induction b generalizing c with
  | ends verdict => exact .refl hs
  | sleeps millis next ih =>
    unfold follow
    split
    next => exact ih hs
    next => exact .setTimer hs t .stage _
  | waits next ih =>
    unfold follow
    have gated : ∀ gate, Works c { c with gate := gate } [] := fun _ => .of_eq hs (Nat.le_refl _) rfl rfl rfl rfl
    split
    next gate _ => exact (gated gate).after (ih (gated gate).sane)
    next gate _ => exact gated gate

theorem works_pollHandler (hs : c.Sane) (t : Ticket) (n : NodeId) (work : Work) (stage : HandlerStage) :
    Works c (c.pollHandler t n work stage).1 [] := by
  cases stage with
  | fresh =>
    rw [pollHandler]
    split
    next h _ =>
      have ran : Works c (c.record (.ran n h.title work)) [] := .record hs _
      exact ran.after (works_follow ran.sane t _)
    next => exact .refl hs
  | asleep wake next =>
    rw [pollHandler]
    split
    next => exact works_follow hs t next
    next => exact .refl hs
  | held next =>
    rw [pollHandler]
    split
    next gate _ =>
      have gated : Works c { c with gate := gate } [] := .of_eq hs (Nat.le_refl _) rfl rfl rfl rfl
      exact gated.after (works_follow gated.sane t next)
    next => exact .refl hs

end Cluster

end Workshare
