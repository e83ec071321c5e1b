import Workshare.Proofs.Cluster.Agreement
import Workshare.Proofs.Cluster.Loads
import Workshare.Proofs.Manager.Routing

namespace Workshare

/-- A work of this node goes on when nobody waits for its end any more. -/
def Event.drops (n : NodeId) : Event → Bool
  | .dropped p _ => p = n
  | _ => false

theorem Event.waived_eq (n : NodeId) (e : Event) : e.waived n = if e.drops n then 1 else 0 := by
  cases e with
  | dropped p work => simp [waived, drops]
  | _ => rfl

/-- A move that is the business of the works on their way. -/
def Move.counts : Move → Bool
  | .count _ => true
  | .complete _ _ _ => true
  | .settle _ _ => true
  | _ => false

theorem Move.weight_of_counts {x : Move} (h : x.counts = false) : x.weight = 0 := by
  cases x <;> first | rfl | cases h

def Executor.IsPool (e : Executor) : Prop :=
  ∃ pool, e = .pool pool

theorem Executor.IsPool.lanes (pool pool' : Pool) (_ : IsPool (.pool pool)) : IsPool (.pool pool') :=
  ⟨pool', rfl⟩

namespace Manager

theorem attend_balance (m : Manager) (changes : List MembershipChange) : (m.attend changes).balance = m.balance := by
  have left : ∀ (m : Manager) (p : NodeId), (m.leave p).balance = m.balance := by
    intro m p
    unfold leave
    split
    next => rfl
    next => exact congrArg Tally.balance (own_tell _ _)
  induction changes generalizing m with
  | nil => rfl
  | cons change changes ih =>
    refine (ih _).trans ?_
    cases change with
    | joined p => exact congrArg Tally.balance (own_tell _ _)
    | left p => exact left m p

theorem disband_balance (m : Manager) : m.disband.balance = m.balance := by
  have gone : ∀ (peers : List NodeId) (m : Manager), (peers.foldl leave m).balance = m.balance := by
    intro peers
    induction peers with
    | nil => intro m; rfl
    | cons p peers ih =>
      intro m
      exact (ih _).trans (attend_balance m [.left p])
  exact gone _ m

end Manager

namespace Cluster

def balance (c : Cluster) (n : NodeId) : Int :=
  (c.manager? n).elim 0 Manager.balance

def dropped (c : Cluster) (n : NodeId) : Nat :=
  c.events.countP (Event.drops n)

/-- What a task owes to a node; `own` is the one that goes on. -/
def owes (c : Cluster) (n : NodeId) (own : Option Ticket) (v : Ticket) : Int :=
  if own = some v then 0 else (c.tasks.get? v).elim 0 (Task.due n)

def owed (c : Cluster) (n : NodeId) (own : Option Ticket) : Int :=
  ∑ v ∈ Finset.range c.fresh, c.owes n own v

/-- The books of node `n`, with `due` in the hands of task `own` that goes on. Whoever holds a worker still owes
an outcome, and a work that waits for its end still owes an admission; with these debts and the works that were
dropped the balance is zero at all times. -/
structure Balanced (n : NodeId) (own : Option Ticket) (c : Cluster) (due : Int) : Prop where
  there : (c.host? n).isSome
  dated : ∀ v, c.fresh ≤ v → c.tasks.get? v = none
  owner : ∀ t, own = some t → t < c.fresh
  sum : c.balance n + c.owed n own + due = c.dropped n

variable {n : NodeId} {own : Option Ticket} {c c' : Cluster} {due due' : Int}

theorem dropped_append {news : List Event} (events : c'.events = c.events ++ news)
    (quiet : ∀ e ∈ news, e.drops n = false) : c'.dropped n = c.dropped n := by
  have none : news.countP (Event.drops n) = 0 := by
    refine List.countP_eq_zero.mpr fun e he => ?_
    rw [quiet e he]
    simp
  rw [dropped, dropped, events, List.countP_append, none, Nat.add_zero]

theorem balance_insert {p : NodeId} {h : Host} (hosts : c'.hosts = c.hosts.insert p h) :
    c'.balance n = if n = p then h.manager.elim 0 Manager.balance else c.balance n := by
  unfold balance manager? host?
  rw [hosts, Table.get?_insert]
  split
  next => rfl
  next => rfl

theorem owed_eq (c : Cluster) (n : NodeId) (own : Option Ticket) : c.owed n own = c.load (Hand.due n) own := by
  refine Finset.sum_congr rfl fun v _ => ?_
  unfold owes weighs
  split
  next => rfl
  next =>
    cases c.tasks.get? v with
    | none => rfl
    | some task => exact task.due_eq n

theorem owed_congr (tasks : ∀ v, v < c.fresh → own ≠ some v → c'.tasks.get? v = c.tasks.get? v)
    (fresh : c'.fresh = c.fresh) : c'.owed n own = c.owed n own := by
  rw [owed_eq, owed_eq, load_congr tasks fresh]

theorem inquire_kept (c : Cluster) (p : NodeId) (peers : List NodeId) :
    (c.inquire p peers).hosts = c.hosts ∧ (c.inquire p peers).events = c.events := by
  induction peers generalizing c with
  | nil => exact ⟨rfl, rfl⟩
  | cons peer peers ih => exact ih (c.spawn (.refresh p peer)).1

/-- What the task in hand owes is what all tasks owe beyond the others. -/
theorem owed_none {t : Ticket} (ht : t < c.fresh) :
    c.owed n none = c.owed n (some t) + (c.tasks.get? t).elim 0 (Task.due n) := by
  rw [owed_eq, owed_eq, load_none ht]
  cases c.tasks.get? t with
  | none => rfl
  | some task => exact congrArg (_ + ·) (task.due_eq n).symm

namespace Balanced

theorem of_eq (h : Balanced n own c due) (there : (c'.host? n).isSome) (tasks : c'.tasks = c.tasks)
    (fresh : c'.fresh = c.fresh) (balance : c'.balance n = c.balance n) (dropped : c'.dropped n = c.dropped n) :
    Balanced n own c' due := by
  refine ⟨there, ?_, ?_, ?_⟩
  · rw [tasks, fresh]
    exact h.dated
  · rw [fresh]
    exact h.owner
  · rw [balance, dropped, owed_congr (fun _ _ _ => by rw [tasks]) fresh]
    exact h.sum

theorem of_hosts (h : Balanced n own c due) (hosts : c'.hosts = c.hosts) (tasks : c'.tasks = c.tasks)
    (fresh : c'.fresh = c.fresh) (events : c'.events = c.events) : Balanced n own c' due := by
  refine h.of_eq ?_ tasks fresh ?_ ?_
  · rw [host?, hosts]
    exact h.there
  · unfold balance manager? host?
    rw [hosts]
  · rw [dropped, dropped, events]

/-- A host changes, but not what its manager has counted. -/
theorem of_insert (h : Balanced n own c due) {p : NodeId} {host host' : Host} (there : c.host? p = some host)
    (hosts : c'.hosts = c.hosts.insert p host')
    (same : host'.manager.elim 0 Manager.balance = host.manager.elim 0 Manager.balance) (tasks : c'.tasks = c.tasks)
    (fresh : c'.fresh = c.fresh) (events : c'.dropped n = c.dropped n) : Balanced n own c' due := by
  refine h.of_eq ?_ tasks fresh ?_ events
  · rw [host?, hosts, Table.get?_insert]
    split
    next => rfl
    next => exact h.there
  · rw [balance_insert hosts]
    split
    next hn =>
      rw [same, balance, manager?, hn, there]
      rfl
    next => rfl

theorem spawn (h : Balanced n own c due) (task : Task) : Balanced n own (c.spawn task).1 (due - task.due n) := by
  have tasks : ∀ v, (c.spawn task).1.tasks.get? v = if v = c.fresh then some task else c.tasks.get? v :=
    fun v => Table.get?_insert _ _ _ _
  refine ⟨h.there, ?_, ?_, ?_⟩
  · intro v hv
    have later : c.fresh < v := hv
    rw [tasks, if_neg (Nat.ne_of_gt later)]
    exact h.dated v (Nat.le_of_lt later)
  · intro t ht
    exact Nat.lt_succ_of_lt (h.owner t ht)
  · have owed : (c.spawn task).1.owed n own = c.owed n own + task.due n := by
      rw [owed_eq, owed_eq, load_spawn h.owner, task.due_eq]
    have sum := h.sum
    have same : (c.spawn task).1.balance n = c.balance n := rfl
    have quiet : (c.spawn task).1.dropped n = c.dropped n := rfl
    rw [owed, same, quiet]
    omega

theorem inquire (h : Balanced n own c due) (p : NodeId) (peers : List NodeId) :
    Balanced n own (c.inquire p peers) due := by
  induction peers generalizing c with
  | nil => exact h
  | cons peer peers ih =>
    have asked := h.spawn (.refresh p peer)
    rw [show due - (Task.refresh p peer).due n = due from Int.sub_zero due] at asked
    exact ih asked

theorem learnt (h : Balanced n own c due) {p : NodeId} {host : Host} {m : Manager} (there : c.host? p = some host)
    (attached : host.manager = some m) (byView : Bool) (r : AddressBook String × List MembershipChange) :
    Balanced n own (c.learnt p host m byView r) due := by
  have asked := h.inquire p (if byView then r.2.flatMap (·.asked p) else [])
  have kept : ∀ peers : List NodeId, (c.inquire p peers).hosts = c.hosts ∧ (c.inquire p peers).events = c.events :=
    inquire_kept c p
  have still : (c.inquire p (if byView then r.2.flatMap (·.asked p) else [])).host? p = some host := by
    rw [host?, (kept _).1]
    exact there
  have quiet : ∀ e ∈ (m.echoes r.2).map (Event.effect p), e.drops n = false := by
    intro e he
    obtain ⟨_, _, rfl⟩ := List.mem_map.mp he
    rfl
  have changed : (c.learnt p host m byView r).hosts =
      (c.inquire p (if byView then r.2.flatMap (·.asked p) else [])).hosts.insert p
        { host with book := r.1, manager := some (m.attend r.2) } := by
    rw [(kept _).1]
    rfl
  refine asked.of_insert still changed ?_ rfl rfl ?_
  · rw [attached]
    exact Manager.attend_balance m r.2
  · refine dropped_append ?_ quiet
    rw [(kept _).2]
    rfl

theorem informed (h : Balanced n own c due) {p : NodeId} {x : Tiding String} (informed : c.Informed p x c') :
    Balanced n own c' due := by
  cases informed with
  | absent _ => exact h
  | told hp hm agree learnt byView => exact h.learnt hp hm byView _

theorem record (h : Balanced n own c due) (e : Event) : Balanced n own (c.record e) (due + e.waived n) := by
  refine ⟨h.there, h.dated, h.owner, ?_⟩
  have counted : (c.record e).dropped n = c.dropped n + if e.drops n then 1 else 0 := by
    rw [dropped, dropped, Cluster.record, List.countP_append, List.countP_singleton]
  have sum := h.sum
  have same : (c.record e).balance n + (c.record e).owed n own = c.balance n + c.owed n own := rfl
  rw [same, counted, Event.waived_eq]
  split
  next => omega
  next => omega

/-- What the manager of the node counts is no longer due. -/
theorem stirred (h : Balanced n own c due) {p : NodeId} {host : Host} {m m' : Manager} {weight : Int}
    (there : c.host? p = some host) (attached : host.manager = some m) (stirs : m.Stirs m' weight) :
    Balanced n own (c.setHost p { host with manager := some m' }) (if p = n then due - weight else due) := by
  have hosts : (c.setHost p { host with manager := some m' }).hosts =
      c.hosts.insert p { host with manager := some m' } := rfl
  refine ⟨?_, h.dated, h.owner, ?_⟩
  · rw [host?, hosts, Table.get?_insert]
    split
    next => rfl
    next => exact h.there
  · have sum := h.sum
    have before : p = n → c.balance n = m.balance := by
      intro hp
      rw [balance, manager?, ← hp, there]
      show (host.manager).elim 0 Manager.balance = _
      rw [attached]
      rfl
    have quiet : (c.setHost p { host with manager := some m' }).dropped n = c.dropped n := rfl
    have owed : (c.setHost p { host with manager := some m' }).owed n own = c.owed n own := rfl
    rw [balance_insert hosts, quiet, owed]
    by_cases hp : p = n
    · have counted := stirs.balance
      rw [if_pos hp.symm, if_pos hp]
      rw [before hp] at sum
      show m'.balance + _ + _ = _
      omega
    · rw [if_neg (Ne.symm hp), if_neg hp]
      exact sum

theorem stride {T : Traffic} {s s' : Cluster × Int} (step : Stride T n s s') (agrees : s.1.Agrees Executor.IsPool)
    (h : Balanced n own s.1 s.2) : Balanced n own s'.1 s'.2 := by
  cases step with
  | aside same => exact h.of_hosts same.hosts same.tasks same.fresh same.events
  | record e => exact h.record e
  | spawn ht => exact h.spawn _
  | lane pool' hh hx => exact h.of_insert hh rfl rfl rfl rfl rfl
  | manager hh hm stirs quiet => exact h.stirred hh hm stirs
  | join _ => exact h.informed (agrees.addMember _ _ _)
  | leave _ => exact h.informed (agrees.removeMember _ _)
  | unkept due' hk =>
    refine absurd ?_ hk
    obtain ⟨host, hn⟩ := Option.isSome_iff_exists.mp h.there
    obtain ⟨executor, m, hm, _⟩ := agrees n host hn
    obtain ⟨pool, hx⟩ := executor
    exact ⟨host, m, pool, hn, hm, hx⟩

theorem strides {T : Traffic} {s s' : Cluster × Int} (steps : Strides T n s s') (agrees : s.1.Agrees Executor.IsPool)
    (h : Balanced n own s.1 s.2) : Balanced n own s'.1 s'.2 := by
  induction steps with
  | refl => exact h
  | tail first last ih => exact stride last (Agrees.strides Executor.IsPool.lanes first agrees) ih

theorem depart (h : Balanced n own c due) (agrees : c.Agrees Executor.IsPool) (p : NodeId) :
    Balanced n own (c.depart p) due := by
  cases hp : c.host? p with
  | none =>
    rw [Cluster.depart, withBook, hp]
    unfold tell manage
    rw [hp]
    exact h
  | some host =>
    obtain ⟨executor, m, hm, agree⟩ := agrees p host hp
    have there : (c.setHost p { host with book := host.book.clear }).host? p =
        some { host with book := host.book.clear } := (Table.get?_insert _ _ _ _).trans (if_pos rfl)
    rw [Cluster.depart, withBook_eq hp]
    dsimp only
    generalize hc : c.setHost p { host with book := host.book.clear } = c₁
    rw [hc] at there
    have cleared : Balanced n own c₁ due := hc ▸ h.of_insert hp rfl rfl rfl rfl rfl
    have changed : (c₁.setHost p { host with book := host.book.clear, manager := some m.disband.drain.2 }).hosts =
        c.hosts.insert p { host with book := host.book.clear, manager := some m.disband.drain.2 } := by
      rw [← hc]
      exact Table.insert_insert _ _ _ _
    have steps : Strides .any n
        (c₁.setHost p { host with book := host.book.clear, manager := some m.disband.drain.2 }, due)
        (m.disband.drain.1.foldl (perform p)
          (c₁.setHost p { host with book := host.book.clear, manager := some m.disband.drain.2 }), due) :=
      strides_performAll (fun _ _ => trivial) p m.disband.drain.1
    rw [tell, manage_some there hm]
    refine strides steps ?_ ?_
    · exact agrees.of_insert changed executor ⟨_, rfl, agree.disband⟩
    · refine cleared.of_insert there rfl ?_ rfl rfl rfl
      show m.disband.balance = host.manager.elim 0 Manager.balance
      rw [hm]
      exact Manager.disband_balance m

theorem motions {s s' : Cluster × Int} (steps : Motions Executor.IsPool n s s') (agrees : s.1.Agrees Executor.IsPool)
    (h : Balanced n own s.1 s.2) : Balanced n own s'.1 s'.2 := by
  induction steps with
  | refl => exact h
  | tail first last ih =>
    have agrees := Agrees.motions Executor.IsPool.lanes first agrees
    cases last with
    | stride step => exact stride step agrees ih
    | network net => exact ih.of_hosts rfl rfl rfl rfl
    | view p members => exact ih.informed (agrees.onView p members)
    | depart p => exact ih.depart agrees p
    | alter manager book kept =>
      rename_i c due p f
      unfold Cluster.alter
      split
      next host hp => exact ih.of_insert hp rfl (by rw [manager]) rfl rfl rfl
      next => exact ih

/-- The task in hand is put down, with what it owes, or is over. -/
theorem putDown {t : Ticket} (h : Balanced n (some t) c due) (left : Option Task)
    (paid : left.elim 0 (Task.due n) = due) (tasks : ∀ v, c'.tasks.get? v = if v = t then left else c.tasks.get? v)
    (hosts : c'.hosts = c.hosts) (fresh : c'.fresh = c.fresh) (events : c'.events = c.events) : Balanced n none c' 0 := by
  have ht : t < c.fresh := h.owner t rfl
  have others : c'.owed n (some t) = c.owed n (some t) :=
    owed_congr (fun v _ hv => by rw [tasks, if_neg fun e => hv (congrArg some e.symm)]) fresh
  have owed : c'.owed n none = c.owed n (some t) + due := by
    rw [owed_none (by rw [fresh]; exact ht), tasks, if_pos rfl, others, paid]
  have balance : c'.balance n = c.balance n := by
    unfold Cluster.balance manager? host?
    rw [hosts]
  have dropped : c'.dropped n = c.dropped n := by rw [Cluster.dropped, Cluster.dropped, events]
  refine ⟨?_, ?_, nofun, ?_⟩
  · rw [host?, hosts]
    exact h.there
  · intro v hv
    rw [fresh] at hv
    rw [tasks, if_neg (Nat.ne_of_gt (Nat.lt_of_lt_of_le ht hv))]
    exact h.dated v hv
  · have sum := h.sum
    rw [owed, balance, dropped]
    omega

theorem walks {t : Ticket} {task : Task} (agrees : c.Agrees Executor.IsPool) (h : Balanced n (some t) c (task.due n))
    (goes : Walks .any n t (c, task.due n) c') : Balanced n none c' 0 := by
  rcases goes with ⟨c₁, left, steps, _, rfl⟩ | ⟨c₁, said, steps, rfl⟩
  · have done := strides steps agrees h
    exact done.putDown (some left) rfl (fun v => Table.get?_insert _ _ _ _) rfl rfl rfl
  · have done := strides steps agrees h
    exact done.putDown none rfl (fun v => Table.get?_erase _ _ _) rfl rfl rfl

theorem summon (h : Balanced n none c 0) (agrees : c.Agrees Executor.IsPool) {task : Task} (free : task.due n = 0) :
    Balanced n none (c.summon task) 0 := by
  have owed : ({ c with fresh := c.fresh + 1, front := some c.fresh, called := false } : Cluster).owed n
      (some c.fresh) = c.owed n none := by
    rw [owed_eq, owed_eq, load_called]
  have called : Balanced n (some c.fresh)
      { c with fresh := c.fresh + 1, front := some c.fresh, called := false } (task.due n) := by
    refine ⟨h.there, fun v hv => h.dated v (Nat.le_of_succ_le hv), ?_, ?_⟩
    · rintro _ ⟨⟩
      exact Nat.lt_succ_self _
    · rw [owed, free]
      exact h.sum
  have agrees : ({ c with fresh := c.fresh + 1, front := some c.fresh, called := false } : Cluster).Agrees
      Executor.IsPool := agrees.of_hosts rfl
  exact called.walks agrees (walks_any _ n _ task)

theorem poll (h : Balanced n none c 0) (agrees : c.Agrees Executor.IsPool) (t : Ticket) :
    Balanced n none (c.poll t) 0 := by
  unfold Cluster.poll
  cases ht : c.tasks.get? t with
  | none => exact h
  | some task =>
    have young : t < c.fresh := by
      refine Nat.lt_of_not_le fun old => ?_
      rw [h.dated t old] at ht
      cases ht
    have apart := owed_none (n := n) (c := c) young
    rw [ht] at apart
    have held : Balanced n (some t) c (task.due n) := by
      refine ⟨h.there, h.dated, ?_, ?_⟩
      · rintro _ ⟨⟩
        exact young
      · have sum := h.sum
        rw [apart, Int.add_zero, ← Int.add_assoc] at sum
        exact sum
    exact held.walks agrees (walks_any c n t task)

end Balanced

end Cluster

/-- Nobody but the works themselves moves the counters of a manager, and every executor is a pool. -/
def Occurrence.IsFair : Occurrence → Prop
  | .deed (.move _ x _) _ => x.counts = false
  | .deed (.executor _ e) _ => e.IsPool
  | _ => True

/-- A work waits or runs on node `n`. -/
def Task.worksAt (n : NodeId) : Task → Bool
  | .errand e _ => e.host = n
  | .call x _ =>
    match x.exchange with
    | .serving e => e.host = n
    | .travelling _ _ _ => false
  | .runner p _ _ _ => p = n
  | _ => false

theorem Task.due_of_idle {n : NodeId} {task : Task} (idle : task.worksAt n = false) : task.due n = 0 := by
  have settled : ∀ e : Errand, decide (e.host = n) = false → e.due n = 0 := by
    intro e away
    unfold Errand.due
    rw [if_neg (of_decide_eq_false away)]
    cases e.wait <;> rfl
  cases task with
  | errand e client => exact settled e idle
  | call x purpose =>
    obtain ⟨peer, target, limit, deadline, exchange⟩ := x
    cases exchange with
    | travelling arrival op body => rfl
    | serving e => exact settled e idle
  | runner p work waiter handler => exact if_neg (of_decide_eq_false idle)
  | _ => rfl

/-- A host that has been set up and has not worked yet. -/
def Host.Idle (n : NodeId) (h : Host) : Prop :=
  h.New n ∧ h.executor.IsPool ∧ ∀ m, h.manager = some m → m.balance = 0

namespace Cluster

namespace Balanced

variable {n : NodeId} {c : Cluster}

theorem undergo (h : Balanced n none c 0) (agrees : c.Agrees Executor.IsPool) {x : Occurrence} (fair : x.IsFair) :
    Balanced n none (c.undergo x) 0 := by
  cases x with
  | deed d inner =>
    show Balanced n none (c.does d) 0
    by_cases free : ∃ w, d = .begin w
    · obtain ⟨w, rfl⟩ := free
      show Balanced n none (c.summon (w.task c.now)) 0
      exact h.summon agrees (due_wish w c.now)
    by_cases idle : ∃ t, d = .go t
    · obtain ⟨t, rfl⟩ := idle
      exact h.poll agrees t
    have executors : ∀ p e, d = .executor p e → e.IsPool := by
      rintro p e rfl
      exact fair
    have steps : Motions Executor.IsPool n (c, 0) _ :=
      motions_does inner (fun w e => free ⟨w, e⟩) (fun t e => idle ⟨t, e⟩) executors
    have done := motions steps agrees h
    have nothing : d.leaves n 0 = 0 := by
      unfold Deed.leaves
      split
      next p x other =>
        have light : x.weight = 0 := Move.weight_of_counts fair
        rw [light, Int.sub_zero, ite_self]
      next => rfl
    dsimp only at done
    rwa [nothing] at done
  | message p op body => exact h.summon agrees rfl
  | view p members => exact h.informed (agrees.onView p members)

theorem course (h : Balanced n none c 0) (agrees : c.Agrees Executor.IsPool) {course : List Occurrence}
    (fair : ∀ x ∈ course, x.IsFair) :
    Balanced n none (course.foldl Cluster.undergo c) 0 ∧ (course.foldl Cluster.undergo c).Agrees Executor.IsPool := by
  induction course generalizing c with
  | nil => exact ⟨h, agrees⟩
  | cons x course ih =>
    have first := fair x List.mem_cons_self
    refine ih (h.undergo agrees first) ?_ fun y hy => fair y (List.mem_cons_of_mem x hy)
    refine agrees.undergo Executor.IsPool.lanes x ?_
    rintro p e inner rfl
    exact first

theorem start {hosts : List (NodeId × Host)} (idle : ∀ e ∈ hosts, e.2.Idle e.1) {h : Host} (known : (n, h) ∈ hosts) :
    Balanced n none (start hosts) 0 := by
  have listed : (lastAddress hosts n).isSome := isSome_lastAddress.mpr (List.mem_map_of_mem known)
  rw [← AddressBook.get?_ofList_eq] at listed
  obtain ⟨h, there⟩ : ∃ h, (Cluster.start hosts).host? n = some h := Option.isSome_iff_exists.mp listed
  obtain ⟨⟨_, _, _, _, _, attached⟩, _, zero⟩ := idle (n, h) (hosts_start there)
  refine ⟨Option.isSome_iff_exists.mpr ⟨h, there⟩, fun _ _ => rfl, nofun, ?_⟩
  have nothing : (Cluster.start hosts).balance n = 0 := by
    rw [balance, manager?, there]
    show h.manager.elim 0 Manager.balance = 0
    rw [attached]
    exact zero _ attached
  rw [nothing]
  rfl

end Balanced

/-- At rest the outcomes that a node has counted are the works that it has counted as admitted, and those that went on
when the time of the caller was over: whatever happens, starts and stops, calls that time out at any moment, messages
and views of any content. -/
theorem admissions_and_outcomes {hosts : List (NodeId × Host)} (idle : ∀ e ∈ hosts, e.2.Idle e.1)
    {course : List Occurrence} (fair : ∀ x ∈ course, x.IsFair) {n : NodeId} {h : Host} (known : (n, h) ∈ hosts) :
    ∃ m, (course.foldl undergo (start hosts)).manager? n = some m ∧
      ((∀ t task, (course.foldl undergo (start hosts)).tasks.get? t = some task → task.worksAt n = false) →
        m.statistics.own.admitted + (course.foldl undergo (start hosts)).dropped n = m.statistics.own.outcomes) := by
  have agrees : (start hosts).Agrees Executor.IsPool := by
    intro p x hp
    have set := idle (p, x) (hosts_start hp)
    exact ⟨set.2.1, set.1.agrees⟩
  obtain ⟨balanced, agrees⟩ := (Balanced.start idle known).course agrees fair
  revert balanced agrees
  generalize course.foldl undergo (start hosts) = c
  intro balanced agrees
  obtain ⟨x, there⟩ := Option.isSome_iff_exists.mp balanced.there
  obtain ⟨_, m, attached, _⟩ := agrees n x there
  have manager : c.manager? n = some m := by
    rw [manager?, there]
    exact attached
  refine ⟨m, manager, fun rest => ?_⟩
  have nothing : c.owed n none = 0 := by
    refine Finset.sum_eq_zero fun v _ => ?_
    unfold owes
    rw [if_neg (Option.some_ne_none v).symm]
    cases ht : c.tasks.get? v with
    | none => rfl
    | some task => exact Task.due_of_idle (rest v task ht)
  have sum := balanced.sum
  rw [nothing, balance, manager] at sum
  have sum : m.statistics.own.balance + 0 + 0 = c.dropped n := sum
  unfold Tally.balance at sum
  omega

/-- A host whose manager sends every work to the first peer with a free worker; its calls take at most 50 milliseconds,
and a work takes 200. -/
def hurried (n : NodeId) : Host where
  executor := .pool ⟨.ofSize 1, .ofSize 1, ⟨40000000⟩,
    .ofList [("echo", ⟨"echo", fun _ => .sleeps 200 (.ends (.ok ()))⟩)]⟩
  manager := some ((Manager.start n .default ⟨1, 1⟩).run
    [.transport ⟨"network", 0⟩ false, .policy ⟨⟨"policy", 0⟩, .always⟩,
      .selector ⟨⟨"selector", 0⟩, .firstAvailable⟩]).drain.2
  book := .start n
  timeout := ⟨50000000⟩

theorem hurried_idle (n : NodeId) : (hurried n).Idle n := by
  refine ⟨⟨rfl, _, _, _, ?_, rfl⟩, ⟨_, rfl⟩, ?_⟩
  · intro x hx
    simp only [List.mem_cons, List.not_mem_nil, or_false] at hx
    rcases hx with rfl | rfl | rfl <;> rfl
  · rintro _ ⟨⟩
    rfl

def hurriedPair : List (NodeId × Host) :=
  [(⟨"a"⟩, hurried ⟨"a"⟩), (⟨"b"⟩, hurried ⟨"b"⟩)]

theorem hurriedPair_idle : ∀ e ∈ hurriedPair, e.2.Idle e.1 := by
  intro e he
  simp only [hurriedPair, List.mem_cons, List.not_mem_nil, or_false] at he
  rcases he with rfl | rfl
  · exact hurried_idle ⟨"a"⟩
  · exact hurried_idle ⟨"b"⟩

/-- The first host sends a work to the second one and waits for 50 milliseconds; the work goes on to its end. -/
def overtime : List Occurrence :=
  [starting ⟨"a"⟩, starting ⟨"b"⟩] ++ inTurn [0, 1, 2, 3, 4, 5, 6, 7] ++
  [.deed (.begin (.submit ⟨⟨"a"⟩, .run, Manager.parcel⟩)) rfl, .deed (.clock 50 []) rfl] ++ inTurn [8, 9, 10, 11, 12] ++
  [.deed (.clock 250 []) rfl] ++ inTurn [12, 10, 13, 14, 15, 16]

theorem overtime_fair : ∀ x ∈ overtime, x.IsFair := by
  simp [overtime, starting, inTurn, Occurrence.IsFair]

theorem admissions_and_outcomes_overtime :
    ∃ m, (overtime.foldl undergo (start hurriedPair)).manager? ⟨"b"⟩ = some m ∧ m.statistics.own.outcomes = 1 ∧
      m.statistics.own.admitted + 1 = m.statistics.own.outcomes := by
  obtain ⟨m, manager, balanced⟩ :=
    admissions_and_outcomes hurriedPair_idle overtime_fair (n := ⟨"b"⟩) (.tail _ (.head _))
  have ended : (overtime.foldl undergo (start hurriedPair)).tasks.entries.length = 0 := by decide +kernel
  have dropped : (overtime.foldl undergo (start hurriedPair)).dropped ⟨"b"⟩ = 1 := by decide +kernel
  have outcomes : ((overtime.foldl undergo (start hurriedPair)).manager? ⟨"b"⟩).map (·.statistics.own.outcomes) =
      some 1 := by decide +kernel
  rw [manager] at outcomes
  refine ⟨m, manager, Option.some.inj outcomes, ?_⟩
  rw [← dropped]
  refine balanced fun t task ht => ?_
  have among := Table.get?_eq_some_iff.mp ht
  rw [List.eq_nil_of_length_eq_zero ended] at among
  cases among

/-- Admissions and outcomes alone do not balance: at the end of this run no task is left, and an outcome has been
counted of a work whose admission has not. -/
theorem admissions_short_overtime :
    ¬ ∀ (hosts : List (NodeId × Host)) (course : List Occurrence) (n : NodeId) (m : Manager),
      (∀ e ∈ hosts, e.2.Idle e.1) → (∀ x ∈ course, x.IsFair) →
      (course.foldl undergo (start hosts)).tasks.entries.length = 0 →
      (course.foldl undergo (start hosts)).manager? n = some m →
      m.statistics.own.admitted = m.statistics.own.outcomes := by
  intro balanced
  have counted : ((overtime.foldl undergo (start hurriedPair)).manager? ⟨"b"⟩).map
      (fun m => (m.statistics.own.admitted, m.statistics.own.outcomes)) = some (0, 1) := by decide +kernel
  obtain ⟨m, manager, tally⟩ := Option.map_eq_some_iff.mp counted
  have same := balanced hurriedPair overtime ⟨"b"⟩ m hurriedPair_idle overtime_fair (by decide +kernel) manager
  have admitted : m.statistics.own.admitted = 0 := congrArg Prod.fst tally
  have outcomes : m.statistics.own.outcomes = 1 := congrArg Prod.snd tally
  rw [admitted, outcomes] at same
  cases same

end Cluster

end Workshare
