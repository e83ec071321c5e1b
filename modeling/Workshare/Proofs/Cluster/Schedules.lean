import Workshare.Proofs.Cluster.OneHop

namespace Workshare

namespace Cluster

/-- What a cluster can become by deeds; the scheduler reaches nothing else. -/
def Reaches (c c' : Cluster) : Prop :=
  ∃ deeds : List Deed, deeds.foldl does c = c'

namespace Reaches

variable {c c' c'' : Cluster}

theorem refl (c : Cluster) : c.Reaches c :=
  ⟨[], rfl⟩

theorem deed (c : Cluster) (d : Deed) : c.Reaches (c.does d) :=
  ⟨[d], rfl⟩

theorem trans (h : c.Reaches c') (h' : c'.Reaches c'') : c.Reaches c'' := by
  obtain ⟨deeds, rfl⟩ := h
  obtain ⟨more, rfl⟩ := h'
  exact ⟨deeds ++ more, List.foldl_append⟩

theorem queue (c : Cluster) (ready : List Ticket) (front : Option Ticket) (called : Bool) :
    c.Reaches { c with ready := ready, front := front, called := called } :=
  deed c (.queue ready front called)

theorem clock (c : Cluster) (now : Nat) (timers : List Timer) : c.Reaches { c with now := now, timers := timers } :=
  deed c (.clock now timers)

theorem go (c : Cluster) (t : Ticket) : c.Reaches (c.poll t) :=
  deed c (.go t)

theorem wakeAll (c : Cluster) (ts : List Ticket) : c.Reaches (c.wakeAll ts) := by
  obtain ⟨ready, called, e⟩ := c.wakeAll_eq ts
  rw [e]
  exact queue c ready c.front called

theorem ring (c : Cluster) (time : Nat) : c.Reaches (c.ring time) :=
  (clock c time (c.timers.partition (·.due ≤ time)).2).trans (wakeAll _ _)

theorem runReady (count : Nat) (c : Cluster) : c.Reaches (runReady count c) := by
  induction count generalizing c with
  | zero => exact refl c
  | succ count ih =>
    rw [Cluster.runReady]
    split
    next => exact refl c
    next t rest _ => exact (queue c rest c.front c.called).trans ((go _ t).trans (ih _))

theorem runFront (c : Cluster) : c.Reaches c.runFront := by
  unfold Cluster.runFront
  split
  next t _ =>
    split
    next => exact (queue c c.ready c.front false).trans (go _ t)
    next => exact refl c
  next => exact refl c

theorem runTurns (fuel : Nat) (c : Cluster) : c.Reaches (runTurns fuel c) := by
  induction fuel generalizing c with
  | zero => exact refl c
  | succ fuel ih =>
    have turned := (runFront c).trans (runReady turn c.runFront)
    rw [Cluster.runTurns]
    split
    next => exact turned.trans (ih _)
    next => exact turned

theorem quiesce (c : Cluster) : c.Reaches c.quiesce :=
  runTurns patience c

theorem passUntil (time fuel : Nat) (c : Cluster) : c.Reaches (passUntil time fuel c) := by
  induction fuel generalizing c with
  | zero => exact refl c
  | succ fuel ih =>
    have quiet := quiesce c
    rw [Cluster.passUntil]
    split
    next due _ =>
      split
      next => exact quiet.trans ((ring _ due).trans (ih _))
      next => exact quiet.trans (clock _ time _)
    next => exact quiet.trans (clock _ time _)

theorem awaitTask (t : Ticket) (fuel : Nat) (c : Cluster) : c.Reaches (awaitTask t fuel c) := by
  induction fuel generalizing c with
  | zero => exact refl c
  | succ fuel ih =>
    have quiet := quiesce c
    rw [Cluster.awaitTask]
    split
    next =>
      split
      next due _ => exact quiet.trans ((ring _ due).trans (ih _))
      next => exact quiet
    next => exact quiet

theorem pass (c : Cluster) (millis : Nat) : c.Reaches (c.pass millis) :=
  passUntil (c.now + millis) patience c

theorem tick (c : Cluster) : c.Reaches c.tick :=
  (quiesce c).trans (ring _ _)

/-- What is waited for begins at once, and the rest of the wait is a list of deeds. -/
theorem run (c : Cluster) (w : Wish) : (c.does (.begin w)).Reaches (c.run (w.task c.now)).1 :=
  (awaitTask c.fresh patience _).trans (queue _ _ none false)

end Reaches

end Cluster

namespace Course

variable {r : Course}

theorem run_cluster (r : Course) (deeds : List Deed) : (r.run deeds).cluster = deeds.foldl Cluster.does r.cluster := by
  induction deeds generalizing r with
  | nil => rfl
  | cons d deeds ih => exact ih (r.take d)

theorem run_append (r : Course) (xs ys : List Deed) : r.run (xs ++ ys) = (r.run xs).run ys :=
  List.foldl_append

theorem orders_run (h : r.Orderly) {t : Ticket} {o : Order} (ho : r.orders.get? t = some o) (deeds : List Deed) :
    (r.run deeds).orders.get? t = some o := by
  induction deeds generalizing r with
  | nil => exact ho
  | cons d deeds ih =>
    refine ih (h.take d) ?_
    unfold take
    dsimp only
    split
    next o' _ =>
      have old : t ≠ r.cluster.fresh := Nat.ne_of_lt (h.tickets t o ho)
      rw [Table.get?_insert, if_neg old, ho]
    next => exact ho

end Course

namespace Cluster

theorem lookup_answers (l : List (Ticket × Answer)) (t : Ticket) :
    l.lookup t = ((l.filter (·.1 = t)).map (·.2)).head? := by
  induction l with
  | nil => rfl
  | cons e l ih =>
    obtain ⟨v, a⟩ := e
    by_cases hv : v = t
    · simp [hv]
    · have hne : (t == v) = false := beq_false_of_ne fun he => hv he.symm
      simp [List.lookup_cons, hv, hne, ih]

theorem told_of_single {c : Cluster} {t : Ticket} (h : (c.told t).length ≤ 1) :
    (c.answers.lookup t).toList = c.told t := by
  rw [lookup_answers]
  show (c.told t).head?.toList = c.told t
  match c.told t, h with
  | [], _ => rfl
  | [_], _ => rfl

end Cluster

namespace Course

/-- A submission whose end is waited for makes one hop at most, and the caller gets what it was told. -/
theorem submit_one_hop {hosts : List (NodeId × Host)} (hosted : ∀ e ∈ hosts, e.2.Sane e.1) (deeds : List Deed)
    (o : Order) :
    ∃ heard, o.OneHop heard (((start hosts).run deeds).cluster.submit o.host o.mode o.work).2.toList := by
  have orderly := (Orderly.start hosted).run deeds
  revert orderly
  generalize (start hosts).run deeds = r
  intro orderly
  -- the call is one run: it begins with the submission, and its wait is deeds of others
  obtain ⟨more, reached⟩ := Cluster.Reaches.run r.cluster (.submit o)
  have begun : (r.take (.begin (.submit o))).orders.get? r.cluster.fresh = some o := by
    show (r.orders.insert r.cluster.fresh o).get? r.cluster.fresh = some o
    rw [Table.get?_insert, if_pos rfl]
  have ended := orders_run (orderly.take _) begun more
  obtain ⟨said, told, journey⟩ := ((orderly.take (.begin (.submit o))).run more).journeys _ _ ended
  have hop := journey.oneHop
  rw [run_cluster] at told
  have told : (r.cluster.submit o.host o.mode o.work).1.told r.cluster.fresh = said.toList := reached ▸ told
  have single : ((r.cluster.submit o.host o.mode o.work).1.told r.cluster.fresh).length ≤ 1 := by
    rw [told]
    exact hop.answered
  have answer : (r.cluster.submit o.host o.mode o.work).2.toList = said.toList :=
    (Cluster.told_of_single single).trans told
  rw [answer]
  exact ⟨_, hop⟩

end Course

end Workshare
