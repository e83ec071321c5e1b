import Workshare.Cluster.Operations
import Workshare.Proofs.Cluster.Orders

namespace Workshare

/-- What is asked of a cluster: a submission, or something that hands over no work. -/
inductive Wish
  | submit (o : Order)
  | ping (host peer : NodeId)
  | free (host peer : NodeId) (long : Bool)
  | handle (host : NodeId) (work : Work)

def Wish.order? : Wish → Option Order
  | .submit o => some o
  | _ => none

def Wish.task (now : Nat) : Wish → Task
  | .submit o => o.task
  | .ping host peer => .ask host peer .ping (.ping now)
  | .free host peer long => .ask host peer (Cluster.freeRequest long) .free
  | .handle host work => .handler host work none .fresh

/-- Whatever may come next in a cluster. Deeds follow each other in any order, so that a run interleaves its tasks
at will. -/
inductive Deed
  | later (w : Wish)
  | begin (w : Wish)
  | go (t : Ticket)
  | clock (now : Nat) (timers : List Timer)
  | queue (ready : List Ticket) (front : Option Ticket) (called : Bool)
  | network (net : Loopback)
  | start (n : NodeId)
  | stop (n : NodeId)
  | move (n : NodeId) (x : Move) (other : x.isSubmission = false)
  | executor (n : NodeId) (executor : Executor)
  | timeout (n : NodeId) (limit : Duration)
  | release (count : Nat)

/-- The submission that begins with a deed. -/
def Deed.order? : Deed → Option Order
  | .later w => w.order?
  | .begin w => w.order?
  | _ => none

/-- The task that goes on in a deed. -/
def Deed.doer (fresh : Ticket) : Deed → Option Ticket
  | .later _ => some fresh
  | .begin _ => some fresh
  | .go t => some t
  | _ => none

namespace Cluster

def alter (c : Cluster) (n : NodeId) (f : Host → Host) : Cluster :=
  match c.host? n with
  | some h => c.setHost n (f h)
  | none => c

def does (c : Cluster) : Deed → Cluster
  | .later w => (c.spawn (w.task c.now)).1
  | .begin w => { c with fresh := c.fresh + 1, front := some c.fresh, called := false }.resume c.fresh (w.task c.now)
  | .go t => c.poll t
  | .clock now timers => { c with now := now, timers := timers }
  | .queue ready front called => { c with ready := ready, front := front, called := called }
  | .network net => { c with net := net }
  | .start n => c.startNode n
  | .stop n => c.stopNode n
  | .move n x _ => c.tell n (·.move x)
  | .executor n executor => c.alter n fun h => { h with executor := executor }
  | .timeout n limit => c.alter n fun h => { h with timeout := limit }
  | .release count => c.release count

def told (c : Cluster) (t : Ticket) : List Answer :=
  (c.answers.filter (·.1 = t)).map (·.2)

variable {c c' : Cluster} {t : Ticket} {loud : List Event} {left : Option Task} {said : Option Answer}

theorem works_alter (hs : c.Sane) (n : NodeId) {f : Host → Host} (hm : ∀ h, (f h).manager = h.manager)
    (hb : ∀ h, (f h).book = h.book) : Works c (c.alter n f) [] := by
  unfold alter
  split
  next h hh =>
    have sane := hs n h hh
    exact .setHost hs hh ⟨sane.fits, by rw [hm]; exact sane.manager, by rw [hb]; exact sane.book⟩
  next => exact .refl hs

theorem works_release (hs : c.Sane) (count : Nat) : Works c (c.release count) [] := by
  have gated : Works c { c with gate := (c.gate.giveMany count).1 } [] := .of_eq hs (Nat.le_refl _) rfl rfl rfl rfl
  exact gated.after (.wakeAll gated.sane _)

theorem works_startNode (hs : c.Sane) (n : NodeId) : Works c (c.startNode n) [] := by
  have told : Works c (c.tell n (·.connect.1)) [] := works_tell hs n fun m => Murmurs.move m (x := .connect) rfl
  have connected := told.after (works_connect told.sane n)
  exact connected.after (works_tell connected.sane n fun m => Murmurs.move m (x := .announceAll _) rfl)

theorem works_stopNode (hs : c.Sane) (n : NodeId) : Works c (c.stopNode n) [] := by
  have told : Works c (c.tell n (·.disconnect)) [] := works_tell hs n fun m => Murmurs.move m (x := .disconnect) rfl
  have disconnected := told.after (works_disconnect told.sane n)
  exact disconnected.after (works_tell disconnected.sane n fun m => Murmurs.move m (x := .disband) rfl)

theorem works_does (hs : c.Sane) {d : Deed} (hd : d.doer c.fresh = none) : Works c (c.does d) [] := by
  cases d with
  | later w => cases hd
  | begin w => cases hd
  | go t => cases hd
  | clock now timers => exact .of_eq hs (Nat.le_refl _) rfl rfl rfl rfl
  | queue ready front called => exact .of_eq hs (Nat.le_refl _) rfl rfl rfl rfl
  | network net => exact .of_eq hs (Nat.le_refl _) rfl rfl rfl rfl
  | start n => exact works_startNode hs n
  | stop n => exact works_stopNode hs n
  | move n x other => exact works_tell hs n fun m => Murmurs.move m other
  | executor n e => exact works_alter hs n (fun _ => rfl) fun _ => rfl
  | timeout n limit => exact works_alter hs n (fun _ => rfl) fun _ => rfl
  | release count => exact works_release hs count

theorem turn_spawn (hs : c.Sane) (task : Task) : Turn c.fresh c (c.spawn task).1 [] (some task) none := by
  have waits : Works c { c with fresh := c.fresh + 1, ready := c.ready ++ [c.fresh] } [] :=
    .of_eq hs (Nat.le_succ _) rfl rfl rfl rfl
  exact waits.park c.fresh task

theorem Wish.harmless {w : Wish} (hw : w.order? = none) (now : Nat) : (w.task now).Harmless := by
  cases w with
  | submit o => cases hw
  | ping host peer => exact ⟨Request.idle_of_ne_join rfl (by simp [Request.operation]), rfl⟩
  | free host peer long => exact ⟨idle_freeRequest long, rfl⟩
  | handle host work => trivial

end Cluster

/-- A run so far: the cluster, its events with the tasks that were going on, and the submissions. -/
structure Course where
  cluster : Cluster
  log : List (Option Ticket × Event)
  orders : Table Ticket Order

namespace Course

def start (hosts : List (NodeId × Host)) : Course :=
  ⟨.start hosts, [], .empty⟩

def take (r : Course) (d : Deed) : Course where
  cluster := r.cluster.does d
  log := r.log ++ ((r.cluster.does d).events.drop r.cluster.events.length).map (d.doer r.cluster.fresh, ·)
  orders :=
    match d.order? with
    | some o => r.orders.insert r.cluster.fresh o
    | none => r.orders

def run (r : Course) (deeds : List Deed) : Course :=
  deeds.foldl take r

def heard (r : Course) (t : Ticket) : List Event :=
  ((r.log.filter (·.1 = some t)).map (·.2)).filter Event.isLoud

/-- Every ticket that is in use was given out. -/
structure Dated (r : Course) : Prop where
  tasks : ∀ v task, r.cluster.tasks.get? v = some task → v < r.cluster.fresh
  answers : ∀ v a, (v, a) ∈ r.cluster.answers → v < r.cluster.fresh
  doers : ∀ v e, (some v, e) ∈ r.log → v < r.cluster.fresh
  tickets : ∀ v o, r.orders.get? v = some o → v < r.cluster.fresh

/-- Every order is on its way, whatever else is going on is harmless, and nothing loud is heard of it. -/
structure Orderly (r : Course) : Prop extends Dated r where
  sane : r.cluster.Sane
  strangers : ∀ v task, r.cluster.tasks.get? v = some task → r.orders.get? v = none → task.Harmless
  journeys : ∀ v o, r.orders.get? v = some o → ∃ said : Option Answer,
    r.cluster.told v = said.toList ∧ o.Journey (r.heard v) (r.cluster.tasks.get? v) said
  owners : ∀ s e, (s, e) ∈ r.log → e.isLoud → ∃ v, s = some v ∧ (r.orders.get? v).isSome
  events : r.log.map (·.2) = r.cluster.events

variable {r : Course}

theorem heard_append (r : Course) (more : List (Option Ticket × Event)) (c : Cluster) (orders : Table Ticket Order)
    (t : Ticket) :
    heard ⟨c, r.log ++ more, orders⟩ t =
      r.heard t ++ ((more.filter (·.1 = some t)).map (·.2)).filter Event.isLoud := by
  simp only [heard, List.filter_append, List.map_append]

theorem filter_doer (s : Option Ticket) (t : Ticket) (news : List Event) :
    ((news.map (s, ·)).filter (·.1 = some t)).map (·.2) = if s = some t then news else [] := by
  induction news with
  | nil => simp
  | cons e news ih =>
    rw [List.map_cons]
    by_cases h : s = some t
    · rw [if_pos h] at ih ⊢
      rw [List.filter_cons_of_pos (by simpa using h), List.map_cons, ih]
    · rw [if_neg h] at ih ⊢
      rw [List.filter_cons_of_neg (by simpa using h), ih]

theorem events_doer (s : Option Ticket) (news : List Event) : (news.map (s, ·)).map Prod.snd = news := by
  rw [List.map_map]
  exact List.map_id news

theorem told_append {c c' : Cluster} {replies : List (Ticket × Answer)} (h : c'.answers = c.answers ++ replies)
    (v : Ticket) : c'.told v = c.told v ++ (replies.filter (·.1 = v)).map (·.2) := by
  unfold Cluster.told
  rw [h, List.filter_append, List.map_append]

theorem told_of_own {c c' : Cluster} {t : Ticket} {said : Option Answer}
    (h : c'.answers = c.answers ++ (said.map (t, ·)).toList) : c'.told t = c.told t ++ said.toList := by
  rw [told_append h]
  cases said with
  | none => rfl
  | some a => simp

theorem told_of_others {c c' : Cluster} {replies : List (Ticket × Answer)} (h : c'.answers = c.answers ++ replies)
    {own : Option Ticket} (mine : ∀ e ∈ replies, own = some e.1) {v : Ticket} (hv : own ≠ some v) :
    c'.told v = c.told v := by
  have nothing : replies.filter (·.1 = v) = [] := by
    refine List.filter_eq_nil_iff.mpr fun e he hev => ?_
    have same : e.1 = v := by simpa using hev
    exact hv (same ▸ mine e he)
  rw [told_append h, nothing]
  exact List.append_nil _

end Course

end Workshare
