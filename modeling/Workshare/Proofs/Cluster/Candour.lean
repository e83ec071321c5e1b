import Workshare.Proofs.Cluster.Staff
import Workshare.Proofs.Manager.Announcements

namespace Workshare

/-- What node `n` announces of its own pools by this event. -/
def Event.announced? (n : NodeId) : Event → Option (Bool × UInt64)
  | .effect p e => if p = n then e.announced? else none
  | _ => none

/-- The last free workers of one pool that have been said. -/
def lastSaid (long : Bool) (said : List (Bool × UInt64)) : Option UInt64 :=
  said.foldl (fun last s => if s.1 = long then some s.2 else last) none

/-- Free workers that have to be entered while `free` are free. One less is free for a work that is about to ask for a
worker, and of a pool whose worker has just come back nothing has to be said yet. -/
def Hand.owed (n : NodeId) (long : Bool) (free : UInt64) : Hand → Option UInt64
  | .promised p l => some (if (p, l) = (n, long) ∧ free ≠ 0 then free - 1 else free)
  | .returned p l => if (p, l) = (n, long) then none else some free
  | _ => some free

theorem Hand.owed_of {n p : NodeId} {x : Hand} (hx : x.Of p) (other : p ≠ n) (long : Bool) (free : UInt64) :
    x.owed n long free = some free := by
  cases x with
  | promised q l =>
    refine congrArg some (if_neg ?_)
    rintro ⟨h, _⟩
    exact other (hx.symm.trans (Prod.ext_iff.mp h).1)
  | returned q l => exact if_neg fun h => other (hx.symm.trans (Prod.ext_iff.mp h).1)
  | _ => rfl

theorem Hand.owed_returned (n : NodeId) (long : Bool) (free : UInt64) : (Hand.returned n long).owed n long free = none :=
  if_pos rfl

theorem Free.ofPool_setPool_other {long l : Bool} (other : long ≠ l) (f : Free) (free : UInt64) :
    (f.setPool long free).ofPool l = f.ofPool l := by
  cases long <;> cases l <;> first | rfl | exact absurd rfl other

theorem lastSaid_append {long : Bool} {before said : List (Bool × UInt64)} {free : Free}
    (told : ∀ v, lastSaid long before = some v → v = free.ofPool long) :
    ∀ v, lastSaid long (before ++ said) = some v → v = (said.foldl (fun f s => f.setPool s.1 s.2) free).ofPool long := by
  unfold lastSaid at told ⊢
  rw [List.foldl_append]
  generalize before.foldl _ none = last at told ⊢
  induction said generalizing last free with
  | nil => exact told
  | cons s said ih =>
    refine ih _ ?_
    intro v hv
    dsimp only at hv
    split at hv
    next hl =>
      cases hv
      subst hl
      exact (Free.ofPool_setPool free s.1 s.2).symm
    next hl => exact (told v hv).trans (Free.ofPool_setPool_other hl free s.2).symm

namespace Cluster

/-- What node `n` has announced of its own pools so far. -/
def announcements (c : Cluster) (n : NodeId) : List (Bool × UInt64) :=
  c.events.filterMap (·.announced? n)

variable {n p : NodeId} {c c' : Cluster} {x y : Hand} {m m' : Manager} {long : Bool}

theorem announcements_congr (h : c'.events = c.events) : c'.announcements n = c.announcements n := by
  unfold announcements
  rw [h]

theorem announcements_record (c : Cluster) {e : Event} (he : e.announced? n = none) :
    (c.record e).announcements n = c.announcements n := by
  show (c.events ++ [e]).filterMap _ = _
  rw [List.filterMap_append, List.filterMap_cons_none he]
  exact List.append_nil _

theorem announcements_performAll (p n : NodeId) (effects : List Effect) (c : Cluster) :
    (effects.foldl (perform p) c).announcements n =
      c.announcements n ++ if p = n then effects.filterMap Effect.announced? else [] := by
  obtain ⟨_, _, _, e⟩ := performAll_eq p effects c
  rw [e, announcements]
  dsimp only
  rw [List.filterMap_append, List.filterMap_map]
  refine congrArg (c.announcements n ++ ·) ?_
  split
  next here => exact congrArg (effects.filterMap ·) (funext fun e => if_pos here)
  next other => exact List.filterMap_eq_nil_iff.mpr fun e _ => if_neg other

theorem announcements_tell (hm : c.manager? p = some m) (act : Manager → Manager) :
    (c.tell p act).announcements p = c.announcements p ++ (act m).drain.1.filterMap Effect.announced? := by
  obtain ⟨h, hp, attached⟩ := host_of_manager hm
  rw [tell_eq hp attached, announcements_performAll, if_pos rfl]
  rfl

theorem announcements_tell_of_ne (other : p ≠ n) (act : Manager → Manager) :
    (c.tell p act).announcements n = c.announcements n := by
  cases hm : c.manager? p with
  | none => rw [tell_absent hm]
  | some m =>
    obtain ⟨h, hp, attached⟩ := host_of_manager hm
    rw [tell_eq hp attached, announcements_performAll, if_neg other, List.append_nil]
    rfl

theorem announcements_alter (p : NodeId) (f : Host → Host) : (c.alter p f).announcements n = c.announcements n := by
  unfold Cluster.alter
  split
  next => rfl
  next => rfl

/-- The manager `m` of node `n` has entered and announced what is true, with `x` in the hands of whoever goes on. -/
structure Vouches (n : NodeId) (c : Cluster) (x : Hand) (m : Manager) : Prop where
  manager : c.manager? n = some m
  id : m.id = n
  quiet : m.outbox = []
  entry : ∀ long free, x.owed n long ((c.free n).ofPool long) = some free → m.ownFree.ofPool long = free
  said : ∀ long free, lastSaid long (c.announcements n) = some free → free = m.ownFree.ofPool long
  mute : m.transport = none → c.announcements n = []

/-- Node `n` tells the truth of its own pools. -/
def Honest (n : NodeId) (c : Cluster) (x : Hand) : Prop :=
  ∃ m, Vouches n c x m

theorem free_congr (h : c'.executor? n = c.executor? n) : c'.free n = c.free n := by
  unfold Cluster.free
  rw [h]

namespace Honest

theorem same (h : Honest n c x) (manager : c'.manager? n = c.manager? n) (executor : c'.executor? n = c.executor? n)
    (said : c'.announcements n = c.announcements n)
    (owed : ∀ long free v, y.owed n long free = some v → x.owed n long free = some v) : Honest n c' y := by
  obtain ⟨m, h⟩ := h
  refine ⟨m, manager.trans h.manager, h.id, h.quiet, ?_, ?_, ?_⟩
  · rw [free_congr executor]
    exact fun long free hv => h.entry long free (owed long _ free hv)
  · rw [said]
    exact h.said
  · rw [said]
    exact h.mute

theorem still (h : Honest n c x) (hosts : c'.hosts = c.hosts) (events : c'.announcements n = c.announcements n)
    (owed : ∀ long free v, y.owed n long free = some v → x.owed n long free = some v) : Honest n c' y :=
  h.same (manager?_congr hosts n) (executor?_congr hosts n) events owed

/-- A manager acts; what it says of its own pools is what is owed afterwards. -/
theorem tell (h : Honest n c x) {act : Manager → Manager}
    (elsewhere : p ≠ n → ∀ long free v, y.owed n long free = some v → x.owed n long free = some v)
    (here : p = n → ∀ m, Vouches n c x m → ∃ said, m.Speaks (act m) said ∧
      ∀ long v, y.owed n long ((c.free n).ofPool long) = some v →
        (said.foldl (fun f s => f.setPool s.1 s.2) m.ownFree).ofPool long = v) :
    Honest n (c.tell p act) y := by
  by_cases other : p = n
  · subst other
    obtain ⟨m, h⟩ := h
    obtain ⟨said, speaks, owed⟩ := here rfl m h
    have manager := manager?_tell h.manager act
    have announced := announcements_tell h.manager act
    obtain ⟨news, hn, told⟩ := speaks.told
    rw [h.quiet, List.nil_append] at hn
    have drained : (act m).drain.1 = news := hn
    rw [drained, told] at announced
    refine ⟨(act m).drain.2, manager, speaks.id.trans h.id, rfl, ?_, ?_, ?_⟩
    · intro long v hv
      rw [free_congr (executor?_tell c p act p)] at hv
      show (act m).ownFree.ofPool long = v
      rw [speaks.own]
      exact owed long v hv
    · intro long v hv
      show v = (act m).ownFree.ofPool long
      rw [speaks.own]
      rw [announced] at hv
      split at hv
      next => exact lastSaid_append (h.said long) v hv
      next mute =>
        have unheard := h.mute (speaks.transport (Option.not_isSome_iff_eq_none.mp mute))
        rw [unheard] at hv
        cases hv
    · intro mute
      have mute : (act m).transport = none := mute
      rw [announced, h.mute (speaks.transport mute), mute]
      rfl
  · exact h.same (manager?_tell_of_ne other act) (executor?_tell c p act n) (announcements_tell_of_ne other act)
      (elsewhere other)

/-- A manager acts and does not speak of its own pools. -/
theorem silent (h : Honest n c x) {act : Manager → Manager}
    (owed : ∀ long free v, y.owed n long free = some v → x.owed n long free = some v)
    (discreet : p = n → ∀ m : Manager, m.id = n → m.Discreet (act m)) : Honest n (c.tell p act) y := by
  refine h.tell (fun _ => owed) fun here m vouches => ⟨[], (discreet here m vouches.id).speaks, ?_⟩
  exact fun long v hv => vouches.entry long v (owed long _ v hv)

/-- Where a lane changes; of the other lanes the same is owed as before. -/
theorem lane (h : Honest n c x) {own : Option Ticket} {sizes : Bool → Nat} (staffed : Staffed n sizes own c x)
    {α : Type} {f : Lane → Lane × α} {a : α} (hc : c.withLane p long f = (c', some a))
    (others : ∀ l, (p, long) ≠ (n, l) → ∀ free v, y.owed n l free = some v → x.owed n l free = some v)
    (turn : p = n → ∀ l, Mans c n long (sizes long) own x l → (f l).2 = a → ∀ v,
      y.owed n long (f l).1.free.toUInt64 = some v → x.owed n long l.free.toUInt64 = some v) : Honest n c' y := by
  obtain ⟨m, h⟩ := h
  obtain ⟨host, pool, hp, executor, answer, rfl⟩ := withLane_some hc
  refine ⟨m, (manager?_replace hp (by rfl) n).trans h.manager, h.id, h.quiet, ?_, h.said, h.mute⟩
  intro l v hv
  have hx := h.entry l
  by_cases here : p = n
  · subst here
    have before : c.executor? p = some (.pool pool) := by
      unfold Cluster.executor?
      rw [hp, ← executor]
      rfl
    obtain ⟨pool', hn, mans⟩ := staffed
    rw [before] at hn
    cases hn
    rw [free_of_pool before, Pool.free_ofPool] at hx
    rw [free_of_pool ((executor?_setHost _ p).trans (if_pos rfl)), Pool.free_ofPool, Pool.lane_setLane] at hv
    split at hv
    next hl =>
      subst hl
      exact hx v (turn rfl _ (mans l) answer v hv)
    next hl => exact hx v (others l (fun e => hl (Prod.ext_iff.mp e).2.symm) _ v hv)
  · rw [free_congr ((executor?_setHost _ n).trans (if_neg (Ne.symm here)))] at hv
    exact hx v (others l (fun e => here (Prod.ext_iff.mp e).1) _ v hv)

theorem withBook (h : Honest n c x) (p : NodeId)
    (f : AddressBook String → AddressBook String × List MembershipChange) : Honest n (c.withBook p f).1 x := by
  refine h.same (manager?_withBook p f n) (executor?_withBook p f n) (announcements_congr ?_) fun _ _ _ => id
  unfold Cluster.withBook
  split
  next => rfl
  next => rfl

theorem report (h : Honest n c x) (p : NodeId) (change : MembershipChange) : Honest n (report p c change) x := by
  cases change with
  | joined q => exact h.silent (fun _ _ _ => id) fun _ m _ => .move m (x := .hear (.join q)) trivial
  | left q => exact h.silent (fun _ _ _ => id) fun _ m _ => .move m (x := .hear (.leave q)) trivial

theorem addMember (h : Honest n c x) (p q : NodeId) (a : String) : Honest n (c.addMember p q a) x :=
  addMember_keeps (I := (Honest n · x)) (fun _ change h => h.report p change) (h.withBook p _)

theorem removeMember (h : Honest n c x) (p q : NodeId) : Honest n (c.removeMember p q) x :=
  removeMember_keeps (I := (Honest n · x)) (fun _ change h => h.report p change) (h.withBook p _)

theorem onView (h : Honest n c x) (p : NodeId) (members : List (NodeId × String)) : Honest n (c.onView p members) x :=
  onView_keeps (I := (Honest n · x)) (fun _ change h => h.report p change)
    (fun _ _ _ h => h.still rfl rfl fun _ _ _ => id) (h.withBook p _)

theorem broadcast (h : Honest n c x) (p : NodeId) (r : Request String) : Honest n (c.broadcast p r) x := by
  rw [broadcast_eq]
  exact h.still rfl rfl fun _ _ _ => id

theorem post (h : Honest n c x) (sender : NodeId) (targets : List String) (op : UInt16) (body : List UInt8) :
    Honest n (c.post sender targets op body) x := by
  refine List.foldlRecOn (motive := (Honest n · x)) _ _ h fun c h target _ => ?_
  split
  next => exact h.still rfl rfl fun _ _ _ => id
  next => exact h

theorem toUInt64_pred (free : Nat) (small : free < 2 ^ 64) :
    (if free.toUInt64 ≠ 0 then free.toUInt64 - 1 else free.toUInt64) = (free - 1).toUInt64 := by
  cases free with
  | zero => rfl
  | succ k =>
    have some : (k + 1).toUInt64 ≠ 0 := by
      intro e
      have e := congrArg UInt64.toNat e
      have value : (k + 1).toUInt64.toNat = k + 1 := by
        show (k + 1) % 2 ^ 64 = k + 1
        exact Nat.mod_eq_of_lt small
      rw [value] at e
      cases e
    rw [if_pos some]
    show UInt64.ofNat (k + 1) - 1 = UInt64.ofNat k
    rw [UInt64.ofNat_add]
    exact UInt64.add_sub_cancel _ _

/-- What has been said before a work asks for a worker is true afterwards. -/
theorem owed_ask {l : Lane} {t : Ticket} (small : l.free < 2 ^ 64) :
    (Hand.promised n long).owed n long l.free.toUInt64 = some (l.ask t).1.free.toUInt64 := by
  have asked : (l.ask t).1.free = l.free - 1 := by
    obtain ⟨free, waiting, granted⟩ := l
    cases free <;> rfl
  unfold Hand.owed
  rw [asked, ← toUInt64_pred l.free small]
  simp

theorem plain_other {l : Bool} (other : (p, long) ≠ (n, l)) (free : UInt64) :
    (Hand.promised p long).owed n l free = some free ∧ (Hand.returned p long).owed n l free = some free :=
  ⟨congrArg some (if_neg fun h => other h.1), if_neg other⟩

/-- A work is promised a worker: one free worker less is announced, and that is what is owed until it asks. -/
theorem promise (h : Honest n c .empty) (agrees : c.Agrees fun _ => True) {act : Manager → Manager}
    (here : p = n → ∀ m : Manager, c.manager? n = some m → m.members.contains m.id → m.Speaks (act m)
      [(long, if (c.free n).ofPool long = 0 then 0 else (c.free n).ofPool long - 1)]) :
    Honest n (c.tell p act) (.promised p long) := by
  refine h.tell (fun other long' free v hv => ?_) fun atHome m vouches => ⟨_, here atHome m vouches.manager
    (agrees.sound vouches.manager).member, fun l v hv => ?_⟩
  · exact (plain_other (fun e => other (Prod.ext_iff.mp e).1) free).1.symm.trans hv
  · subst atHome
    show (m.ownFree.setPool long _).ofPool l = v
    by_cases hl : long = l
    · subst hl
      rw [Free.ofPool_setPool]
      refine Option.some.inj (Eq.trans ?_ hv)
      refine congrArg some ?_
      by_cases none : (c.free p).ofPool long = 0
      · simp [none]
      · simp [none]
    · rw [Free.ofPool_setPool_other hl]
      refine vouches.entry l v ?_
      exact (plain_other (fun e => hl (Prod.ext_iff.mp e).2) _).1.symm.trans hv

/-- A worker is back and free, or has gone to somebody in the queue: how many are free now is announced. -/
theorem complete (h : Honest n c (.returned p long)) (agrees : c.Agrees fun _ => True) (success : Bool) :
    Honest n (c.tell p (·.complete (c.free p) long success)) .empty := by
  refine h.tell (fun other long' free v hv => ?_) fun atHome m vouches =>
    ⟨_, .complete (agrees.sound vouches.manager).member _ _ _, fun l v hv => ?_⟩
  · exact (plain_other (fun e => other (Prod.ext_iff.mp e).1) free).2.trans hv
  · subst atHome
    show (m.ownFree.setPool long _).ofPool l = v
    by_cases hl : long = l
    · subst hl
      rw [Free.ofPool_setPool]
      exact Option.some.inj hv
    · rw [Free.ofPool_setPool_other hl]
      refine vouches.entry l v ?_
      exact (plain_other (fun e => hl (Prod.ext_iff.mp e).2) _).2.trans hv

theorem keep (h : Honest n c .empty) (agrees : c.Agrees fun _ => True) {mode : Mode} {work : Work}
    {answer : Option (Except Abort Placement)} (hc : c.manage p (·.submit (c.free p) mode work) = (c', answer))
    (kept : answer = none ∨ answer = some (.ok .execute)) : Honest n c' (.promised p work.longRunning) := by
  rw [manage_acted hc]
  refine h.promise agrees fun here m hm member => ?_
  subst here
  have answered := (manage_answer hm (·.submit (c.free p) mode work)).symm.trans (congrArg Prod.snd hc)
  rcases Manager.Speaks.submit member (c.free p) mode work with ⟨_, speaks⟩ | ⟨passed, _⟩
  · exact speaks
  · rcases kept with none | stays
    · cases answered.trans none
    · exact absurd (Option.some.inj (answered.trans stays)) passed

theorem pass (h : Honest n c .empty) (agrees : c.Agrees fun _ => True) {mode : Mode} {work : Work}
    {answer : Except Abort Placement} (hc : c.manage p (·.submit (c.free p) mode work) = (c', some answer))
    (passed : answer ≠ .ok .execute) : Honest n c' .empty := by
  rw [manage_acted hc]
  refine h.tell (fun _ _ _ _ => id) fun here m vouches => ⟨[], ?_, fun long v hv => vouches.entry long v hv⟩
  subst here
  have answered := (manage_answer vouches.manager (·.submit (c.free p) mode work)).symm.trans (congrArg Prod.snd hc)
  rcases Manager.Speaks.submit (agrees.sound vouches.manager).member (c.free p) mode work with ⟨kept, _⟩ | ⟨_, discreet⟩
  · exact absurd ((Option.some.inj answered).symm.trans kept) passed
  · exact discreet.speaks

section Lanes

variable {own : Option Ticket} {sizes : Bool → Nat} {t : Ticket} {got : Bool} {next : Option Ticket}

/-- Whoever has asked for a worker owes nothing, whether it has got one or waits. -/
theorem owed_got (l : Bool) (free : UInt64) :
    (if got then Hand.taken p long else .waiting p long).owed n l free = some free := by
  cases got <;> rfl

theorem free_collect (l : Lane) (t : Ticket) : (l.collect t).1.free = l.free := by
  unfold Lane.collect
  split
  next => rfl
  next => rfl

theorem ask (h : Honest n c (.promised p long)) (staffed : Staffed n sizes own c (.promised p long))
    (small : ∀ long, sizes long < 2 ^ 64) (hc : c.withLane p long (·.ask t) = (c', some got)) :
    Honest n c' (if got then .taken p long else .waiting p long) := by
  refine h.lane staffed hc (fun l other free v hv => ?_) fun here l mans _ v hv => ?_
  · rw [owed_got] at hv
    exact (plain_other other free).1.trans hv
  · subst here
    rw [owed_got] at hv
    rwa [owed_ask (t := t) (Nat.lt_of_le_of_lt mans.free_le (small long))]

theorem collect (h : Honest n c (.queued p long)) (staffed : Staffed n sizes own c (.queued p long))
    (hc : c.withLane p long (·.collect t) = (c', some got)) :
    Honest n c' (if got then .taken p long else .waiting p long) := by
  refine h.lane staffed hc (fun l _ free v hv => ?_) fun _ l _ _ v hv => ?_
  · rwa [owed_got] at hv
  · rwa [owed_got, free_collect] at hv

theorem quit (h : Honest n c (.waiting p long)) (staffed : Staffed n sizes (some t) c (.waiting p long))
    (hc : c.withLane p long (·.quit t) = (c', some next)) : Honest n c' .empty := by
  refine h.lane staffed hc (fun _ _ _ _ => id) fun here l mans _ v hv => ?_
  subst here
  have same : (l.quit t).1.free = l.free := (mans.quit rfl rfl).2
  rwa [same] at hv

theorem giveBack (h : Honest n c (.running p long)) (staffed : Staffed n sizes own c (.running p long))
    (hc : c.withLane p long Lane.giveBack = (c', some next)) : Honest n c' (.returned p long) := by
  refine h.lane staffed hc (fun l other free v hv => ?_) fun here l _ _ v hv => ?_
  · exact (plain_other other free).2.symm.trans hv
  · subst here
    rw [Hand.owed_returned] at hv
    cases hv

end Lanes

section Steps

variable {W : Terms} {sizes : Bool → Nat} {t : Ticket}

theorem drift (h : Honest n c .empty) (agrees : c.Agrees fun _ => True) (fixed : ∀ x y, W.executors n x y → y = x)
    (discreet : ∀ x, W.moves n x → x.Discreet n) (drift : Drift W c c') : Honest n c' .empty := by
  have executor := drift.executor? fixed
  cases drift with
  | aside same => exact h.still same.hosts (announcements_congr same.events) fun _ _ _ => id
  | spawn _ _ _ => exact h.still rfl rfl fun _ _ _ => id
  | network net => exact h.still rfl rfl fun _ _ _ => id
  | view _ => exact h.onView _ _
  | enter p => exact h.addMember p p p.text
  | broadcast p _ => exact h.broadcast p _
  | post p targets _ => exact h.post p targets _ _
  | move allowed _ _ =>
    refine h.silent (fun _ _ _ => id) fun here m id => ?_
    subst here id
    exact Manager.Discreet.move m (discreet _ allowed)
  | announce p =>
    refine h.tell (fun _ _ _ _ => id) fun here m vouches =>
      ⟨_, .announceAll (agrees.sound vouches.manager).member _, ?_⟩
    subst here
    intro long v hv
    refine Eq.trans ?_ (Option.some.inj hv)
    cases long <;> rfl
  | depart p => exact (h.withBook p _).silent (fun _ _ _ => id) fun _ m _ => .move m (x := .disband) trivial
  | alter manager book kept => exact h.same (manager?_alter manager n) executor (announcements_alter _ _) fun _ _ _ => id

theorem pace {T : Traffic} {A : Audience} (h : Honest n c x) (staffed : Staffed n sizes (some t) c x)
    (agrees : c.Agrees fun _ => True) (small : ∀ long, sizes long < 2 ^ 64)
    (unheard : ∀ q long free, A.hears n (.free q long free) → q ≠ n) (pace : Pace T A t (c, x) (c', y)) :
    Honest n c' y := by
  cases pace with
  | aside same => exact h.still same.hosts (announcements_congr same.events) fun _ _ _ => id
  | @note _ _ e note =>
    refine h.still rfl (announcements_record c ?_) fun _ _ _ => id
    cases e <;> first | rfl | cases note
  | spawn _ _ _ => exact h.still rfl rfl fun _ _ _ => id
  | ask hc => exact h.ask staffed small hc
  | collect hc => exact h.collect staffed hc
  | wait => exact h.still rfl rfl fun _ _ _ => id
  | quit hc => exact h.quit staffed hc
  | hire p work waiter => exact h.still rfl rfl fun _ _ _ => id
  | giveBack hc => exact h.giveBack staffed hc
  | drop p work => exact h.still rfl (announcements_record c rfl) fun _ _ _ => id
  | vain bare hx hy =>
    have other := staffed.elsewhere bare
    refine h.still rfl rfl fun long free v hv => ?_
    rw [Hand.owed_of hx other]
    rwa [Hand.owed_of hy other] at hv
  | handOver p mode work => exact h.promise agrees fun here m _ member => by subst here; exact .handOver member _ mode work
  | keep hc answer => exact h.keep agrees hc answer
  | pass hc answer => exact h.pass agrees hc answer
  | reject p mode reason => exact h.silent (fun _ _ _ => id) fun _ m _ => .move m (x := .settle mode _) trivial
  | report p mode _ => exact h.silent (fun _ _ _ => id) fun _ m _ => .move m (x := .settle mode _) trivial
  | complete p long success => exact h.complete agrees success
  | scripted bare _ _ => exact h.silent (fun _ _ _ => id) fun here => absurd here (staffed.elsewhere bare)
  | write p _ => exact h.still rfl rfl fun _ _ _ => id
  | post sender targets _ => exact (h.post sender targets _ _).still rfl rfl fun _ _ _ => id
  | discard => exact h.still rfl rfl fun _ _ _ => id
  | look p => exact h.silent (fun _ _ _ => id) fun _ m _ => .refl m
  | learn hears =>
    refine h.silent (fun _ _ _ => id) fun here m id => ?_
    subst here id
    exact .move m (x := .hear (.free _ _ _)) (unheard _ _ _ hears)
  | hear _ _ hears =>
    refine h.silent (fun _ _ _ => id) fun here m id => ?_
    subst here id
    exact .hear m (Move.discreet_hear fun q long free e => unheard q long free (e ▸ hears))
  | join _ _ => exact (h.addMember _ _ _).still rfl rfl fun _ _ _ => id
  | leave _ _ => exact (h.removeMember _ _).still rfl rfl fun _ _ _ => id

end Steps

end Honest

end Cluster

/-- Node `n` keeps its executor, gets works only through its manager, and is told of its own workers by nobody. -/
def Terms.undisputed (n : NodeId) : Terms where
  served _ _ := True
  views _ _ := True
  audience := .ofHears fun p notice => p = n → Move.Discreet n (.hear notice)
  letters _ _ := True
  moves p x := p = n → x.Discreet n
  executors p x y := p = n → y = x
  entering _ := trivial
  viewing _ _ := trivial
  asking _ _ _ _ apart here other := apart (here.trans other.symm)
  dialling _ := ⟨fun _ => trivial, fun _ => trivial⟩
  keeping _ _ _ := rfl

theorem Manager.Discreet.run {m : Manager} {moves : List Move} (discreet : ∀ x ∈ moves, x.Discreet m.id) :
    m.Discreet (m.run moves) := by
  induction moves generalizing m with
  | nil => exact refl m
  | cons x moves ih =>
    have moved := move m (discreet x List.mem_cons_self)
    refine moved.trans (ih fun y hy => ?_)
    rw [moved.id]
    exact discreet y (List.mem_cons_of_mem x hy)

namespace Cluster

def held (name : String) : Work :=
  ⟨⟨name⟩, "hold", .null, true, false⟩

end Cluster

end Workshare
