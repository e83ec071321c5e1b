import Workshare.Proofs.Cluster.Agreement
import Workshare.Proofs.Cluster.Loads

namespace Workshare

namespace Terms

variable (W : Terms)

/-- A task on these terms. -/
def Suits (task : Task) : Prop :=
  task.Carries W.traffic ∧ task.Heeds W.audience

/-- Whatever this task serves now it serves on these terms. -/
def Frees (now : Nat) (task : Task) : Prop :=
  ∀ p op body, task.served? now = some (p, op, body) → W.Serves p op body

/-- What happens next happens on these terms. -/
def Permits (c : Cluster) : Occurrence → Prop
  | .deed (.go t) _ => ∀ task, c.tasks.get? t = some task → W.Frees c.now task
  | .deed (.move p x _) _ => W.moves p x
  | .deed (.executor p e) _ => ∀ x, W.executors p x e
  | .deed _ _ => True
  | .message p op body => Reads (W.letters p) op body ∧ W.Serves p op body
  | .view p members => W.views p members

/-- Everything that happens in this course happens on these terms. -/
def Course : Cluster → List Occurrence → Prop
  | _, [] => True
  | c, x :: course => W.Permits c x ∧ Course (c.undergo x) course

end Terms

namespace Cluster

/-- The tasks are on these terms, and managers and transports agree. -/
structure Within (W : Terms) (c : Cluster) : Prop where
  dated : c.Dated
  tasks : ∀ v task, c.tasks.get? v = some task → W.Suits task
  agrees : c.Agrees fun _ => True

/-- An invariant that every pace and every drift on these terms keeps; it speaks of the task that goes on and of what
that one has in hand, or of no task and empty hands. -/
structure Lasting (W : Terms) (I : Option Ticket → Cluster → Hand → Prop) : Prop where
  lift : ∀ {c : Cluster} {t : Ticket} {task : Task}, c.Within W → I none c .empty → c.tasks.get? t = some task →
    I (some t) c task.hand
  call : ∀ {c : Cluster} {x : Hand}, c.Within W → I none c .empty →
    (x = .empty ∨ ∃ p op body, x = .message p op body ∧ Reads (W.letters p) op body) →
    I (some c.fresh) { c with fresh := c.fresh + 1, front := some c.fresh, called := false } x
  pace : ∀ {c c' : Cluster} {t : Ticket} {x y : Hand}, c.Within W → t < c.fresh → I (some t) c x →
    Pace W.traffic W.audience t (c, x) (c', y) → I (some t) c' y
  park : ∀ {c : Cluster} {t : Ticket} {left : Task}, c.Within W → t < c.fresh → I (some t) c left.hand →
    I none (c.park t left) .empty
  finish : ∀ {c : Cluster} {t : Ticket} {said : Option Answer}, c.Within W → t < c.fresh → I (some t) c .empty →
    I none (c.finish t said) .empty
  drift : ∀ {c c' : Cluster}, c.Within W → I none c .empty → Drift W c c' → I none c' .empty

variable {W : Terms} {T : Traffic} {A : Audience} {t : Ticket} {c c' : Cluster}

/-- By a pace no tasks come but a host's messages to everybody, what is sent, and whoever is hired or begins. -/
theorem Pace.grows {P : Task → Prop} {s s' : Cluster × Hand} (pace : Pace T A t s s')
    (cast : ∀ sender targets op body, P (.broadcast sender targets op body))
    (posted : ∀ target op body delay, P (.post target op body delay))
    (spawned : ∀ task : Task, task.Carries T → task.Heeds A → task.hand = .empty → P task)
    (hired : ∀ p work waiter, P (.runner p work waiter none)) : Grows P s.1 s'.1 := by
  have lane : ∀ {α : Type} {c c' : Cluster} {p : NodeId} {long : Bool} {f : Lane → Lane × α} {a : Option α},
      c.withLane p long f = (c', a) → Grows P c c' := by
    intro α c c' p long f a hc
    have changed : Grows P c (c.withLane p long f).1 := .withLane p long f
    rwa [hc] at changed
  cases pace with
  | aside same => exact .aside same
  | note _ => exact .of_eq rfl rfl rfl
  | spawn carries heeds empty => exact .spawn (spawned _ carries heeds empty)
  | ask hc => exact lane hc
  | collect hc => exact lane hc
  | wait => exact .refl _
  | quit hc => exact lane hc
  | hire p work waiter => exact .spawn (hired p work waiter)
  | giveBack hc => exact lane hc
  | drop p work => exact .of_eq rfl rfl rfl
  | vain _ _ _ => exact .refl _
  | handOver p mode work => exact .tell cast p _
  | keep hc _ => exact .managed cast hc
  | pass hc _ => exact .managed cast hc
  | reject p mode reason => exact .tell cast p _
  | report p mode _ => exact .tell cast p _
  | complete p long success => exact .tell cast p _
  | scripted _ _ _ => exact .tell cast _ _
  | write p _ => exact .refl _
  | post sender targets _ => exact .post posted _ _ _ _
  | discard => exact .refl _
  | look p => exact .tell cast p _
  | learn _ => exact .tell cast _ _
  | hear _ _ _ => exact .tell cast _ _
  | join _ _ => exact .addMember cast _ _ _
  | leave _ _ => exact .removeMember cast _ _

theorem Pace.grows_any {s s' : Cluster × Hand} (pace : Pace T A t s s') : Grows (fun _ => True) s.1 s'.1 :=
  pace.grows (fun _ _ _ _ => trivial) (fun _ _ _ _ => trivial) (fun _ _ _ _ => trivial) fun _ _ _ => trivial

theorem Paces.grows {s s' : Cluster × Hand} (paces : Paces T A t s s') : Grows (fun _ => True) s.1 s'.1 := by
  induction paces with
  | refl => exact .refl _
  | tail _ last ih => exact ih.trans last.grows_any

theorem Pace.within {x y : Hand} (pace : Pace W.traffic W.audience t (c, x) (c', y)) (h : c.Within W) : c'.Within W := by
  have grows : Grows W.Suits c c' := pace.grows (fun _ _ _ _ => ⟨fun _ _ => trivial, trivial⟩)
    (fun _ _ _ _ => ⟨fun _ _ => trivial, trivial⟩) (fun _ carries heeds _ => ⟨carries, heeds⟩)
    fun _ _ _ => ⟨trivial, trivial⟩
  have steps : Strides W.traffic ⟨""⟩ (c, x.due _) (c', y.due _) := strides_pace (fun _ _ => trivial) pace
  refine ⟨grows.dated h.dated, ?_, Agrees.strides (fun _ _ _ => trivial) steps h.agrees⟩
  intro v task hv
  rcases grows.news v task hv with there | ⟨_, suits⟩
  · exact h.tasks v task there
  · exact suits

theorem Drift.grows {P : Task → Prop} (drift : Drift W c c')
    (cast : ∀ sender targets op body, P (.broadcast sender targets op body))
    (posted : ∀ target op body delay, P (.post target op body delay))
    (spawned : ∀ task : Task, task.Carries W.traffic → task.Heeds W.audience → task.hand = .empty → P task)
    (asked : ∀ p q, p ≠ q → P (.refresh p q)) : Grows P c c' := by
  cases drift with
  | aside same => exact .aside same
  | spawn carries heeds empty => exact .spawn (spawned _ carries heeds empty)
  | network net => exact .of_eq rfl rfl rfl
  | view _ => exact .onView cast asked _ _
  | enter p => exact .addMember cast _ _ _
  | broadcast p _ => exact .broadcast cast p _
  | post p targets _ => exact .post posted _ _ _ _
  | move _ _ _ => exact .tell cast _ _
  | announce p => exact .tell cast p _
  | depart p => exact (Grows.withBook p _).trans (.tell cast p _)
  | alter _ _ _ =>
    unfold Cluster.alter
    split
    next => exact .of_eq rfl rfl rfl
    next => exact .refl _

theorem Drifts.grows (drifts : Drifts W c c') : Grows (fun _ => True) c c' := by
  induction drifts with
  | refl => exact .refl _
  | tail _ last ih =>
    exact ih.trans (last.grows (fun _ _ _ _ => trivial) (fun _ _ _ _ => trivial) (fun _ _ _ _ => trivial)
      fun _ _ _ => trivial)

theorem Agrees.drift (drift : Drift W c c') (h : c.Agrees fun _ => True) : c'.Agrees fun _ => True := by
  have strides : ∀ {d d' : Int}, Strides .any ⟨""⟩ (c, d) (c', d') → c'.Agrees fun _ => True :=
    fun steps => Agrees.strides (fun _ _ _ => trivial) steps h
  cases drift with
  | aside same => exact h.of_hosts same.hosts
  | spawn _ _ _ => exact h.of_hosts rfl
  | network net => exact h.of_hosts rfl
  | view _ => exact h.informed (h.onView _ _)
  | enter p => exact h.informed (h.addMember _ _ _)
  | broadcast p _ => exact h.of_hosts (hosts_broadcast c p _)
  | post p targets _ => exact strides (d := 0) (strides_post p targets fun _ _ _ _ => trivial)
  | move _ _ inner => exact strides (d := 0) (strides_tell (fun _ _ => trivial) _ fun m => Manager.Stirs.move m inner)
  | announce p => exact h.tell (fun _ _ _ => trivial) p fun m => Manager.Stirs.move m (x := .announceAll _) rfl
  | depart p => exact h.depart p
  | alter manager book _ => exact h.alter _ manager book fun _ _ => trivial

theorem Drift.within (drift : Drift W c c') (h : c.Within W) : c'.Within W := by
  have grows : Grows W.Suits c c' := drift.grows (fun _ _ _ _ => ⟨fun _ _ => trivial, trivial⟩)
    (fun _ _ _ _ => ⟨fun _ _ => trivial, trivial⟩) (fun _ carries heeds _ => ⟨carries, heeds⟩)
    fun p q apart => ⟨trivial, fun long free => W.asking p q long free apart⟩
  refine ⟨grows.dated h.dated, ?_, h.agrees.drift drift⟩
  intro v task hv
  rcases grows.news v task hv with there | ⟨_, suits⟩
  · exact h.tasks v task there
  · exact suits

namespace Within

theorem park (h : c.Within W) {left : Task} (ht : t < c.fresh) (suits : W.Suits left) : (c.park t left).Within W := by
  have tasks : ∀ v, (c.park t left).tasks.get? v = if v = t then some left else c.tasks.get? v :=
    fun v => Table.get?_insert _ _ _ _
  refine ⟨?_, ?_, h.agrees.of_hosts rfl⟩
  · intro v hv
    rw [tasks, if_neg (Nat.ne_of_gt (Nat.lt_of_lt_of_le ht hv))]
    exact h.dated v hv
  · intro v task hv
    rw [tasks] at hv
    split at hv
    next => cases hv; exact suits
    next => exact h.tasks v task hv

theorem finish (h : c.Within W) (t : Ticket) (said : Option Answer) : (c.finish t said).Within W := by
  have tasks : ∀ v, (c.finish t said).tasks.get? v = if v = t then none else c.tasks.get? v :=
    fun v => Table.get?_erase _ _ _
  refine ⟨?_, ?_, h.agrees.of_hosts rfl⟩
  · intro v hv
    rw [tasks]
    split
    next => rfl
    next => exact h.dated v hv
  · intro v task hv
    rw [tasks] at hv
    split at hv
    next => cases hv
    next => exact h.tasks v task hv

theorem called (h : c.Within W) :
    ({ c with fresh := c.fresh + 1, front := some c.fresh, called := false } : Cluster).Within W :=
  ⟨fun v hv => h.dated v (Nat.le_of_succ_le hv), h.tasks, h.agrees.of_hosts rfl⟩

end Within

namespace Lasting

variable {I : Option Ticket → Cluster → Hand → Prop}

theorem paces (lasting : Lasting W I) {s s' : Cluster × Hand} (paces : Paces W.traffic W.audience t s s')
    (within : s.1.Within W) (young : t < s.1.fresh) (h : I (some t) s.1 s.2) :
    s'.1.Within W ∧ t < s'.1.fresh ∧ I (some t) s'.1 s'.2 := by
  induction paces with
  | refl => exact ⟨within, young, h⟩
  | tail _ last ih =>
    obtain ⟨within, young, h⟩ := ih
    exact ⟨last.within within, Nat.lt_of_lt_of_le young last.grows_any.fresh, lasting.pace within young h last⟩

theorem resume (lasting : Lasting W I) (within : c.Within W) {task : Task} (young : t < c.fresh) (suits : W.Suits task)
    (frees : W.Frees c.now task) (h : I (some t) c task.hand) :
    (c.resume t task).Within W ∧ I none (c.resume t task) .empty := by
  have treads : Treads W.traffic W.audience t (c, task.hand) (c.resume t task) := by
    refine treads_resume (fun _ _ _ _ => trivial) suits.1 suits.2 ?_ fun p op body served => (frees p op body served).2
    intro target op body handed
    refine (frees ⟨target⟩ op body ?_).1
    cases task <;> first | exact congrArg (Option.map _) handed | cases handed
  rcases treads with ⟨c₁, left, paces, carries, heeds, parked⟩ | ⟨c₁, said, paces, ended⟩
  · obtain ⟨within, young, h⟩ := lasting.paces paces within young h
    rw [parked]
    exact ⟨within.park young ⟨carries, heeds⟩, lasting.park within young h⟩
  · obtain ⟨within, young, h⟩ := lasting.paces paces within young h
    rw [ended]
    exact ⟨within.finish t said, lasting.finish within young h⟩

theorem summon (lasting : Lasting W I) (within : c.Within W) {task : Task} (suits : W.Suits task)
    (frees : W.Frees c.now task)
    (hand : task.hand = .empty ∨ ∃ p op body, task.hand = .message p op body ∧ Reads (W.letters p) op body)
    (h : I none c .empty) : (c.summon task).Within W ∧ I none (c.summon task) .empty :=
  lasting.resume within.called (Nat.lt_succ_self c.fresh) suits frees (lasting.call within h hand)

theorem poll (lasting : Lasting W I) (within : c.Within W) (frees : ∀ task, c.tasks.get? t = some task → W.Frees c.now task)
    (h : I none c .empty) : (c.poll t).Within W ∧ I none (c.poll t) .empty := by
  unfold Cluster.poll
  cases ht : c.tasks.get? t with
  | none => exact ⟨within, h⟩
  | some task =>
    exact lasting.resume within (within.dated.young ht) (within.tasks t task ht) (frees task ht)
      (lasting.lift within h ht)

theorem drifts (lasting : Lasting W I) (within : c.Within W) (h : I none c .empty) (drifts : Drifts W c c') :
    c'.Within W ∧ I none c' .empty := by
  induction drifts with
  | refl => exact ⟨within, h⟩
  | tail _ last ih => exact ⟨last.within ih.1, lasting.drift ih.1 ih.2 last⟩

theorem frees_wish (w : Wish) (now now' : Nat) : W.Frees now' (w.task now) := by
  intro p op body served
  cases w <;> cases served

theorem undergo (lasting : Lasting W I) (within : c.Within W) (h : I none c .empty) {x : Occurrence}
    (permits : W.Permits c x) : (c.undergo x).Within W ∧ I none (c.undergo x) .empty := by
  cases x with
  | deed d inner =>
    by_cases free : ∃ w, d = .begin w
    · obtain ⟨w, rfl⟩ := free
      exact lasting.summon within ⟨carries_wish w c.now, heeds_wish w c.now⟩ (frees_wish w _ _) (.inl (hand_wish w c.now)) h
    by_cases idle : ∃ t, d = .go t
    · obtain ⟨t, rfl⟩ := idle
      exact lasting.poll within permits h
    refine lasting.drifts within h (drifts_does inner (fun w e => free ⟨w, e⟩) (fun t e => idle ⟨t, e⟩) ?_ ?_)
    · rintro p y other rfl
      exact permits
    · rintro p e rfl
      exact permits
  | message p op body =>
    refine lasting.summon within ⟨permits.2.1, trivial⟩ ?_ (.inr ⟨p, op, body, rfl, permits.1⟩) h
    rintro _ _ _ ⟨⟩
    exact permits.2
  | view p members => exact lasting.drifts within h (.single (.view permits))

theorem course (lasting : Lasting W I) (within : c.Within W) (h : I none c .empty) {course : List Occurrence}
    (permits : W.Course c course) :
    (course.foldl Cluster.undergo c).Within W ∧ I none (course.foldl Cluster.undergo c) .empty := by
  induction course generalizing c with
  | nil => exact ⟨within, h⟩
  | cons x course ih =>
    obtain ⟨within, h⟩ := lasting.undergo within h permits.1
    exact ih within h permits.2

end Lasting

theorem Within.start {hosts : List (NodeId × Host)} (new : ∀ e ∈ hosts, e.2.New e.1) :
    (Cluster.start hosts).Within W :=
  ⟨fun _ _ => rfl, nofun, fun n h hn => ⟨trivial, (new (n, h) (hosts_start hn)).agrees⟩⟩

end Cluster

end Workshare
