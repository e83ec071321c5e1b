import Mathlib.Logic.Relation
import Workshare.Proofs.Cluster.Traffic
import Workshare.Proofs.Manager.Balance

namespace Workshare

/-- What the task that goes on has in hand: a message that has not been served, a place in the queue for a worker,
a worker, or a work whose end it awaits. -/
inductive Hand
  | empty
  /-- A message that a host is about to serve. -/
  | message (host : NodeId) (op : UInt16) (body : List UInt8)
  /-- A message that is about to be sent to several targets. -/
  | cast (targets : List String) (op : UInt16) (body : List UInt8)
  /-- A work for which a host has announced one free worker less, and has not asked for it. -/
  | promised (host : NodeId) (long : Bool)
  /-- A place in the queue for a worker. -/
  | queued (host : NodeId) (long : Bool)
  /-- A place in the queue at which no worker has been handed over. -/
  | waiting (host : NodeId) (long : Bool)
  /-- A worker that has just been taken. -/
  | taken (host : NodeId) (long : Bool)
  /-- A work whose end is awaited. -/
  | awaiting (host : NodeId)
  /-- A worker that runs a work. -/
  | running (host : NodeId) (long : Bool)
  /-- A work that has run, and whose worker is back. -/
  | returned (host : NodeId) (long : Bool)

def Hand.Of (p : NodeId) : Hand → Prop
  | .empty => True
  | .message _ _ _ => False
  | .cast _ _ _ => False
  | .promised q _ => q = p
  | .queued q _ => q = p
  | .waiting q _ => q = p
  | .taken q _ => q = p
  | .awaiting q => q = p
  | .running q _ => q = p
  | .returned q _ => q = p

def Errand.hand (e : Errand) : Hand :=
  match e.wait with
  | .pause _ => .empty
  | .worker _ _ => .queued e.host e.work.longRunning
  | .finish _ => .awaiting e.host

/-- What is in hand right after a go at an errand: a worker that was there has been taken. -/
def Errand.rest (e : Errand) : Hand :=
  match e.wait with
  | .pause _ => .empty
  | .worker _ _ => .waiting e.host e.work.longRunning
  | .finish _ => .awaiting e.host

def Exchange.hand (target : String) : Exchange → Hand
  | .travelling _ op body => .message ⟨target⟩ op body
  | .serving e => e.hand

def Exchange.rest (target : String) : Exchange → Hand
  | .travelling _ op body => .message ⟨target⟩ op body
  | .serving e => e.rest

/-- What a task has in hand when it goes on. -/
def Task.hand : Task → Hand
  | .serve n op body => .message n op body
  | .errand e _ => e.hand
  | .call x _ => x.exchange.hand x.target
  | .broadcast _ targets op body => .cast targets op body
  | .post target op body _ => .message ⟨target⟩ op body
  | .deliver target op body _ => .message ⟨target⟩ op body
  | .runner p work _ _ => .running p work.longRunning
  | _ => .empty

/-- What a task has in hand only while it goes on. -/
def Hand.isBrief : Hand → Bool
  | .promised _ _ => true
  | .waiting _ _ => true
  | .taken _ _ => true
  | .returned _ _ => true
  | _ => false

theorem Errand.isBrief_hand (e : Errand) : e.hand.isBrief = false := by
  unfold hand
  cases e.wait <;> rfl

theorem Task.isBrief_hand (task : Task) : task.hand.isBrief = false := by
  cases task with
  | errand e client => exact e.isBrief_hand
  | call x purpose =>
    obtain ⟨peer, target, limit, deadline, exchange⟩ := x
    cases exchange with
    | travelling arrival op body => rfl
    | serving e => exact e.isBrief_hand
  | _ => rfl

/-- An event that tells of a work and changes nothing in hand. -/
def Event.isNote : Event → Bool
  | .answered _ _ _ => true
  | .ran _ _ _ => true
  | .completed _ _ _ => true
  | _ => false

namespace Cluster

def Poolless (c : Cluster) (p : NodeId) : Prop :=
  ∀ pool, c.executor? p ≠ some (.pool pool)

/-- The smallest thing that happens while task `t` goes on. Messages are of the traffic `T`, and hosts hear no notices
but those of `A`. -/
inductive Pace (T : Traffic) (A : Audience) (t : Ticket) : Cluster × Hand → Cluster × Hand → Prop
  | aside {c c' : Cluster} {x : Hand} : Aside c c' → Pace T A t (c, x) (c', x)
  | note {c : Cluster} {x : Hand} {e : Event} : e.isNote → Pace T A t (c, x) (c.record e, x)
  | spawn {c : Cluster} {x : Hand} {task : Task} : task.Carries T → task.Heeds A → task.hand = .empty →
      Pace T A t (c, x) ((c.spawn task).1, x)
  -- the executor of a host
  | ask {c c' : Cluster} {p : NodeId} {long got : Bool} : c.withLane p long (·.ask t) = (c', some got) →
      Pace T A t (c, .promised p long) (c', if got then .taken p long else .waiting p long)
  | collect {c c' : Cluster} {p : NodeId} {long got : Bool} : c.withLane p long (·.collect t) = (c', some got) →
      Pace T A t (c, .queued p long) (c', if got then .taken p long else .waiting p long)
  | wait {c : Cluster} {p : NodeId} {long : Bool} : Pace T A t (c, .waiting p long) (c, .queued p long)
  | quit {c c' : Cluster} {p : NodeId} {long : Bool} {next : Option Ticket} :
      c.withLane p long (·.quit t) = (c', some next) → Pace T A t (c, .waiting p long) (c', .empty)
  | hire {c : Cluster} (p : NodeId) (work : Work) (waiter : Option Ticket) :
      Pace T A t (c, .taken p work.longRunning) ((c.spawn (.runner p work waiter none)).1, .awaiting p)
  | giveBack {c c' : Cluster} {p : NodeId} {long : Bool} {next : Option Ticket} :
      c.withLane p long Lane.giveBack = (c', some next) → Pace T A t (c, .running p long) (c', .returned p long)
  | drop {c : Cluster} (p : NodeId) (work : Work) :
      Pace T A t (c, .awaiting p) (c.record (.dropped p work), .empty)
  | vain {c : Cluster} {p : NodeId} {x y : Hand} : c.Poolless p → x.Of p → y.Of p → Pace T A t (c, x) (c, y)
  -- what the manager of a host hears of its works
  | handOver {c : Cluster} (p : NodeId) (mode : Mode) (work : Work) : Pace T A t (c, .empty)
      (c.tell p (·.handOver (c.free p) mode work), .promised p work.longRunning)
  | keep {c c' : Cluster} {p : NodeId} {mode : Mode} {work : Work} {answer : Option (Except Abort Placement)} :
      c.manage p (·.submit (c.free p) mode work) = (c', answer) → answer = none ∨ answer = some (.ok .execute) →
      Pace T A t (c, .empty) (c', .promised p work.longRunning)
  | pass {c c' : Cluster} {p : NodeId} {mode : Mode} {work : Work} {answer : Except Abort Placement} :
      c.manage p (·.submit (c.free p) mode work) = (c', some answer) → answer ≠ .ok .execute →
      Pace T A t (c, .empty) (c', .empty)
  | reject {c : Cluster} (p : NodeId) (mode : Mode) (reason : String) : Pace T A t (c, .empty)
      (c.tell p (·.settle mode (.error (.rejected reason))), .empty)
  | report {c : Cluster} (p : NodeId) (mode : Mode) {outcome : Outcome} :
      (∀ reason, outcome ≠ .error (.rejected reason)) →
      Pace T A t (c, .awaiting p) (c.tell p (·.settle mode outcome), .empty)
  | complete {c : Cluster} (p : NodeId) (long success : Bool) : Pace T A t (c, .returned p long)
      (c.tell p (·.complete (c.free p) long success), .empty)
  | scripted {c : Cluster} {p : NodeId} {x : Hand} {m : Move} : c.Poolless p → m.isPlain → m.isInner →
      Pace T A t (c, x) (c.tell p (·.move m), x)
  -- messages
  | write {c : Cluster} (p : NodeId) {op : UInt16} {body : List UInt8} : Reads A.calls op body →
      Pace T A t (c, .empty) (c, .message p op body)
  | post {c : Cluster} {op : UInt16} {body : List UInt8} (sender : NodeId) (targets : List String) :
      (∀ target, c.net.connected.contains target → Reads (T.sent target) op body) →
      Pace T A t (c, .cast targets op body) (c.post sender targets op body, .empty)
  | discard {c : Cluster} {p : NodeId} {op : UInt16} {body : List UInt8} :
      Pace T A t (c, .message p op body) (c, .empty)
  | look {c : Cluster} {x : Hand} (p : NodeId) : Pace T A t (c, x) (c.tell p fun m => m, x)
  | learn {c : Cluster} {x : Hand} {p peer : NodeId} {long : Bool} {free : UInt64} : A.hears p (.free peer long free) →
      Pace T A t (c, x) (c.tell p (·.updateFree peer long free), x)
  | hear {c : Cluster} {p : NodeId} {op : UInt16} {body : List UInt8} {r : Request String} {notice : Notice} :
      Request.decode .string op body = .ok r → r.notice? = some notice → A.hears p notice →
      Pace T A t (c, .message p op body) (c.tell p (·.hear notice), .empty)
  | join {c : Cluster} {p : NodeId} {op : UInt16} {body : List UInt8} {q : NodeId} {a : String} :
      Request.decode .string op body = .ok (.join q a) → T.served p (.join q a) →
      Pace T A t (c, .message p op body) (c.addMember p q a, .empty)
  | leave {c : Cluster} {p : NodeId} {op : UInt16} {body : List UInt8} {q : NodeId} :
      Request.decode .string op body = .ok (.leave q) → T.served p (.leave q) →
      Pace T A t (c, .message p op body) (c.removeMember p q, .empty)

def Paces (T : Traffic) (A : Audience) (t : Ticket) : Cluster × Hand → Cluster × Hand → Prop :=
  Relation.ReflTransGen (Pace T A t)

variable {T : Traffic} {A : Audience} {t : Ticket} {c c' c'' : Cluster} {x : Hand}

namespace Paces

theorem refl (s : Cluster × Hand) : Paces T A t s s :=
  Relation.ReflTransGen.refl

theorem single {s s' : Cluster × Hand} (h : Pace T A t s s') : Paces T A t s s' :=
  Relation.ReflTransGen.single h

theorem trans {s s' s'' : Cluster × Hand} (h : Paces T A t s s') (h' : Paces T A t s' s'') : Paces T A t s s'' :=
  Relation.ReflTransGen.trans h h'

theorem aside (h : Aside c c') : Paces T A t (c, x) (c', x) :=
  single (.aside h)

theorem wakeAll (vs : List Ticket) : Paces T A t (c, x) (c.wakeAll vs, x) :=
  aside (.wakeAll c vs)

theorem wake (v : Ticket) : Paces T A t (c, x) (c.wake v, x) :=
  wakeAll [v]

theorem setTimer (v : Ticket) (alarm : Alarm) (instant : Nat) : Paces T A t (c, x) (c.setTimer v alarm instant, x) :=
  aside ⟨rfl, rfl, rfl, rfl, rfl, rfl⟩

theorem cancel (v : Ticket) (alarm : Alarm) : Paces T A t (c, x) (c.cancel v alarm, x) :=
  aside ⟨rfl, rfl, rfl, rfl, rfl, rfl⟩

end Paces

@[simp] theorem hosts_broadcast (c : Cluster) (p : NodeId) (r : Request String) :
    (c.broadcast p r).hosts = c.hosts := by
  rw [broadcast_eq]

@[simp] theorem hosts_performAll (p : NodeId) (effects : List Effect) (c : Cluster) :
    (effects.foldl (perform p) c).hosts = c.hosts := by
  obtain ⟨_, _, _, e⟩ := performAll_eq p effects c
  rw [e]

@[simp] theorem executor?_tell (c : Cluster) (p : NodeId) (act : Manager → Manager) (q : NodeId) :
    (c.tell p act).executor? q = c.executor? q := by
  unfold tell
  rcases c.manage_cases p fun m => (act m, ()) with ⟨_, e⟩ | ⟨h, m, hh, _, e⟩
  · rw [e]
  · rw [e]
    unfold executor? host?
    rw [hosts_performAll, setHost, Table.get?_insert]
    split
    next hq =>
      have hh : c.hosts.get? p = some h := hh
      rw [hq, hh]
      rfl
    next => rfl

/-- A lane changes only where there is a pool. -/
theorem withLane_cases {α : Type} (c : Cluster) (p : NodeId) (long : Bool) (f : Lane → Lane × α) :
    (∃ a, (c.withLane p long f).2 = some a) ∨ c.withLane p long f = (c, none) ∧ c.Poolless p := by
  unfold withLane
  split
  next => exact .inl ⟨_, rfl⟩
  next none =>
    refine .inr ⟨rfl, fun pool hx => ?_⟩
    obtain ⟨h, hh, hp⟩ := Option.map_eq_some_iff.mp hx
    obtain ⟨executor, manager, book, timeout⟩ := h
    have hp : executor = .pool pool := hp
    exact none pool manager book timeout (hp ▸ hh)

theorem paces_quit (p : NodeId) (long : Bool) :
    Paces T A t (c, .waiting p long)
      ((c.withLane p long (·.quit t)).1.wakeAll ((c.withLane p long (·.quit t)).2.bind id).toList, .empty) := by
  refine Paces.trans ?_ (.wakeAll _)
  rcases withLane_cases c p long (·.quit t) with ⟨next, some⟩ | ⟨same, none⟩
  · exact .single (.quit (Prod.ext rfl some))
  · rw [same]
    exact .single (.vain none rfl trivial)

/-- What has become of a work after one go, and with it what is in hand. -/
def Fares (T : Traffic) (A : Audience) (t : Ticket) {α : Type} (s : Cluster × Hand) :
    Cluster × Progress Errand α → Prop
  | (c', .waits e) => Paces T A t s (c', e.rest)
  | (c', .ends _) => Paces T A t s (c', .empty)

theorem Fares.after {α : Type} {s s' : Cluster × Hand} {r : Cluster × Progress Errand α} (h : Paces T A t s s')
    (h' : Fares T A t s' r) : Fares T A t s r := by
  obtain ⟨c', p⟩ := r
  cases p with
  | waits e => exact h.trans h'
  | ends outcome => exact h.trans h'

theorem fares_rejected {e : Errand} (reason : String) :
    Fares T A t (c, .empty) (c.settle e (.error (.rejected reason))) := by
  have noted : Paces T A t (c, .empty) (c.record (.answered e.host e.mode (.error (.rejected reason))), .empty) :=
    .single (.note rfl)
  exact noted.trans (.single (.reject e.host e.mode reason))

/-- Whatever is answered but a rejection is the answer to a work that had a worker. -/
theorem fares_admitted {e : Errand} {outcome : Outcome} (admitted : ∀ reason, outcome ≠ .error (.rejected reason)) :
    Fares T A t (c, .awaiting e.host) (c.settle e outcome) := by
  have noted : Paces T A t (c, .awaiting e.host) (c.record (.answered e.host e.mode outcome), .awaiting e.host) :=
    .single (.note rfl)
  exact noted.trans (.single (.report e.host e.mode admitted))

/-- A script answers without a worker. -/
theorem fares_readScript {e : Errand} {s : Script} (hx : c.executor? e.host = some (.script s)) :
    Fares T A t (c, .empty) (c.readScript e s) := by
  have bare : ∀ c₁ : Cluster, (∀ p, c₁.executor? p = c.executor? p) → c₁.Poolless e.host := by
    intro c₁ same pool hp
    rw [same, hx] at hp
    cases hp
  have told : ∃ c₁, c.readScript e s = c₁.settle e (s.outcome e.mode) ∧ Paces T A t (c, .empty) (c₁, .empty) ∧
      ∀ p, c₁.executor? p = c.executor? p := by
    unfold readScript
    cases s.hook with
    | some success =>
      have noted : Paces T A t (c, .empty) (c.record (.completed e.host e.work success), .empty) := .single (.note rfl)
      refine ⟨_, rfl, noted.trans (.single ?_), executor?_tell _ _ _⟩
      exact .scripted (m := .complete _ e.work.longRunning success) (bare _ fun _ => rfl) rfl rfl
    | none => exact ⟨c, rfl, .refl _, fun _ => rfl⟩
  obtain ⟨c₁, read, told, same⟩ := told
  have noted : Paces T A t (c₁, .empty) (c₁.record (.answered e.host e.mode (s.outcome e.mode)), .empty) :=
    .single (.note rfl)
  rw [read]
  refine told.trans (noted.trans (.single ?_))
  exact .scripted (m := .settle e.mode (s.outcome e.mode)) (bare _ same) rfl rfl

theorem fares_begin (e : Errand) (since : Nat) :
    Fares T A t (c, .taken e.host e.work.longRunning) (c.begin t e since) := by
  have hired : ∀ waiter, Paces T A t (c, .taken e.host e.work.longRunning)
      ((c.spawn (.runner e.host e.work waiter none)).1, .awaiting e.host) := fun waiter => .single (.hire _ _ waiter)
  unfold begin
  split
  next => exact hired (some t)
  next => exact .after (hired none) (fares_admitted (by simp))
  next => exact .after (hired none) (fares_admitted (by simp))

theorem fares_reject (e : Errand) (p : Pool) :
    Fares T A t (c, .waiting e.host e.work.longRunning) (c.reject t e p) :=
  .after (paces_quit e.host e.work.longRunning) (fares_rejected _)

/-- Who gets no worker waits for one. -/
theorem paces_refused {p : NodeId} {long : Bool} {f : Lane → Lane × Bool} {answer : Option Bool}
    (refused : c.withLane p long f = (c', some false) → Pace T A t (c, x) (c', .waiting p long)) (hx : x.Of p)
    (hc : c.withLane p long f = (c', answer)) (none : answer = some true → False) :
    Paces T A t (c, x) (c', .waiting p long) := by
  rcases withLane_cases c p long f with ⟨got, some⟩ | ⟨same, bare⟩
  · rw [hc] at some
    have got : got = false := Bool.eq_false_iff.mpr fun e => none (e ▸ some)
    exact .single (refused (by rw [hc, ← got, ← some]))
  · rw [same] at hc
    cases hc
    exact .single (.vain bare hx rfl)

theorem fares_pollErrand (t : Ticket) (e : Errand) : Fares T A t (c, e.hand) (c.pollErrand t e) := by
  unfold pollErrand
  split
  next wake s hw hx =>
    have idle : e.hand = .empty ∧ e.rest = .empty := by rw [Errand.hand, Errand.rest, hw]; exact ⟨rfl, rfl⟩
    rw [idle.1]
    split
    next => exact fares_readScript hx
    next =>
      show Paces T A t (c, .empty) (c, e.rest)
      rw [idle.2]
      exact .refl _
  next since deadline p hw _ =>
    have placed : e.hand = .queued e.host e.work.longRunning ∧ e.rest = .waiting e.host e.work.longRunning := by
      rw [Errand.hand, Errand.rest, hw]
      exact ⟨rfl, rfl⟩
    rw [placed.1]
    split
    next c₁ hc =>
      have collected : Paces T A t (c, .queued e.host e.work.longRunning) (c₁, .taken e.host e.work.longRunning) :=
        .single (.collect hc)
      exact .after (collected.trans (.cancel t .stage)) (fares_begin e since)
    next c₁ answer none hc =>
      have waits := paces_refused (T := T) (A := A) (x := .queued e.host e.work.longRunning) .collect rfl hc none
      split
      next => exact .after waits (fares_reject e p)
      next =>
        show Paces T A t _ (c₁, e.rest)
        rw [placed.2]
        exact waits
  next runner hw =>
    have held : e.hand = .awaiting e.host ∧ e.rest = .awaiting e.host := by
      rw [Errand.hand, Errand.rest, hw]
      exact ⟨rfl, rfl⟩
    rw [held.1]
    split
    next verdict _ =>
      have read : Paces T A t (c, .awaiting e.host) ({ c with verdicts := c.verdicts.erase runner }, .awaiting e.host) :=
        .aside ⟨rfl, rfl, rfl, rfl, rfl, rfl⟩
      refine .after read (fares_admitted ?_)
      intro reason
      cases verdict with
      | ok _ => simp
      | error fault => simp
    next =>
      show Paces T A t _ (c, e.rest)
      rw [held.2]
      exact .refl _
  next unpooled =>
    show Paces T A t (c, e.hand) (c, e.rest)
    unfold Errand.hand Errand.rest
    split
    next => exact .refl _
    next since deadline hw => exact .single (.vain (fun pool hx => unpooled _ _ pool hw hx) rfl rfl)
    next => exact .refl _

theorem fares_execute (t : Ticket) (p : NodeId) (mode : Mode) (work : Work) :
    Fares T A t (c, .promised p work.longRunning) (c.execute t p mode work) := by
  unfold execute
  split
  next s hx =>
    have bare : c.Poolless p := fun pool hp => by rw [hx] at hp; cases hp
    have spared : Paces T A t (c, .promised p work.longRunning) (c, .empty) := .single (.vain bare rfl trivial)
    dsimp only
    split
    next => exact .after spared (fares_readScript hx)
    next => exact spared.trans (.setTimer t .stage _)
  next pool _ =>
    dsimp only
    split
    next c₁ hc =>
      have asked : Paces T A t (c, .promised p work.longRunning) (c₁, .taken p work.longRunning) := .single (.ask hc)
      exact .after asked (fares_begin ⟨p, mode, work, _⟩ _)
    next c₁ answer none hc =>
      have waits := paces_refused (T := T) (A := A) (x := .promised p work.longRunning) .ask rfl hc none
      split
      next => exact .after waits (fares_reject ⟨p, mode, work, _⟩ pool)
      next => exact waits.trans (.setTimer t .stage _)
  next hx =>
    have bare : c.Poolless p := fun pool hp => by rw [hx] at hp; cases hp
    exact .single (.vain bare rfl trivial)

/-- Whatever waits for a worker gives up its place. -/
theorem paces_abandon (t : Ticket) (e : Errand) : Paces T A t (c, e.rest) (c.abandon t e, .empty) := by
  unfold abandon Errand.rest
  cases e.wait with
  | pause wake => exact .refl _
  | worker since deadline => exact paces_quit e.host e.work.longRunning
  | finish runner => exact .single (.drop e.host e.work)

theorem paces_follow (t : Ticket) (b : Behaviour) : Paces T A t (c, x) ((c.follow t b).1, x) := by
  induction b generalizing c with
  | ends verdict => exact .refl _
  | sleeps millis next ih =>
    unfold follow
    split
    next => exact ih
    next => exact .setTimer t .stage _
  | waits next ih =>
    unfold follow
    have gated : ∀ gate, Paces T A t (c, x) ({ c with gate := gate }, x) := fun _ => .aside ⟨rfl, rfl, rfl, rfl, rfl, rfl⟩
    split
    next gate _ => exact (gated gate).trans ih
    next gate _ => exact gated gate

theorem paces_pollHandler (t : Ticket) (p : NodeId) (work : Work) (stage : HandlerStage) :
    Paces T A t (c, x) ((c.pollHandler t p work stage).1, x) := by
  cases stage with
  | fresh =>
    rw [pollHandler]
    split
    next h _ =>
      have ran : Paces T A t (c, x) (c.record (.ran p h.title work), x) := .single (.note rfl)
      exact ran.trans (paces_follow t _)
    next => exact .refl _
  | asleep wake next =>
    rw [pollHandler]
    split
    next => exact paces_follow t next
    next => exact .refl _
  | held next =>
    rw [pollHandler]
    split
    next gate _ =>
      have gated : Paces T A t (c, x) ({ c with gate := gate }, x) := .aside ⟨rfl, rfl, rfl, rfl, rfl, rfl⟩
      exact gated.trans (paces_follow t next)
    next => exact .refl _

/-- What a host does at once does not depend on what it says. -/
theorem manage_fst {α : Type} (c : Cluster) (p : NodeId) (act : Manager → Manager × α) :
    (c.manage p act).1 = c.tell p fun m => (act m).1 := by
  unfold tell manage
  split
  next => rfl
  next =>
    split
    next => rfl
    next => rfl

section Requests

variable {p : NodeId} {op : UInt16} {body : List UInt8}

theorem paces_answerNow {r : Request String} (hd : Request.decode .string op body = .ok r)
    (served : r.isMembership → T.served p r) (heard : ∀ notice, r.notice? = some notice → A.hears p notice) :
    Paces T A t (c, .message p op body) ((c.answerNow p r).1, .empty) := by
  have asks : r ≠ .ping → (∀ q a, r ≠ .join q a) → (∀ q, r ≠ .leave q) →
      Paces T A t (c, .message p op body) ((c.answerNow p r).1, .empty) := by
    intro awake stays goes
    obtain ⟨reply, answered⟩ := answerNow_manage (c := c) p awake stays goes
    rw [answered, manage_fst]
    dsimp only
    cases hn : r.notice? with
    | none =>
      have dropped : Paces T A t (c, .message p op body) (c, .empty) := .single .discard
      exact dropped.trans (.single (.look p))
    | some notice => exact .single (.hear hd hn (heard notice hn))
  cases r with
  | join q a => exact .single (.join hd (served rfl))
  | leave q => exact .single (.leave hd (served rfl))
  | ping => exact .single .discard
  | _ => exact asks (by simp) (by simp) (by simp)

theorem fares_submitHere (t : Ticket) (p : NodeId) (mode : Mode) (work : Work) :
    Fares T A t (c, .empty) (c.submitHere t p mode work) := by
  have told : Paces T A t (c, .empty) (c.tell p (·.handOver (c.free p) mode work), .promised p work.longRunning) :=
    .single (.handOver p mode work)
  exact .after told (fares_execute t p mode work)

theorem fares_serve (t : Ticket) (allowed : T.Allows p op body) (heeds : Heeds A p op body) :
    Fares T A t (c, .message p op body) (c.serve t p op body) := by
  have dropped : Paces T A t (c, .message p op body) (c, .empty) := .single .discard
  unfold serve
  cases hd : Request.decode .string op body with
  | error e => exact dropped
  | ok r =>
    dsimp only
    split
    next mode work _ _ _ =>
      have fares : Fares T A t (c, .message p op body) (c.submitHere t p mode work) :=
        .after dropped (fares_submitHere t p mode work)
      split
      next heq => rw [heq] at fares; exact fares
      next heq => rw [heq] at fares; exact fares
    next => exact paces_answerNow hd (allowed r hd) (heeds r hd)

end Requests

def Exchanges (T : Traffic) (A : Audience) (t : Ticket) (target : String) (s : Cluster × Hand) :
    Cluster × Progress Exchange ReplyBytes → Prop
  | (c', .waits x) => Paces T A t s (c', x.rest target) ∧ x.Carries T target ∧ x.Heeds A
  | (c', .ends _) => Paces T A t s (c', .empty)

def Dials (T : Traffic) (A : Audience) (t : Ticket) (peer : NodeId) (s : Cluster × Hand) :
    Cluster × Progress Call (Except WorkError Reply) → Prop
  | (c', .waits call) => Paces T A t s (c', call.exchange.hand call.target) ∧ call.exchange.Carries T call.target ∧
    call.exchange.Heeds A ∧ call.peer = peer
  | (c', .ends _) => Paces T A t s (c', .empty)

theorem paces_rest (e : Errand) : Paces T A t (c, e.rest) (c, e.hand) := by
  unfold Errand.rest Errand.hand
  cases e.wait with
  | pause wake => exact .refl _
  | worker since deadline => exact .single .wait
  | finish runner => exact .refl _

/-- When the time of a call is over, whatever it still waits for is given up. -/
theorem dials_judge {s : Cluster × Hand} {p : Progress Exchange ReplyBytes} (call : Call)
    (h : Exchanges T A t call.target s (c, p)) : Dials T A t call.peer s (c.judge t call p) := by
  have cancelled : ∀ x, Paces T A t (c, x) ((c.cancel t .limit).cancel t .stage, x) :=
    fun x => (Paces.cancel t .limit).trans (.cancel t .stage)
  cases p with
  | ends bytes => exact h.trans (cancelled _)
  | waits x =>
    obtain ⟨paces, carries, calls⟩ := h
    unfold judge
    dsimp only
    split
    next =>
      have quiet := paces.trans (cancelled _)
      cases x with
      | serving e => exact quiet.trans (paces_abandon t e)
      | travelling arrival op body => exact quiet.trans (.single .discard)
    next =>
      refine ⟨paces.trans ?_, carries, calls, rfl⟩
      cases x with
      | serving e => exact paces_rest e
      | travelling arrival op body => exact .refl _

theorem exchanges_arrive (t : Ticket) (target : String) {op : UInt16} {body : List UInt8}
    (allowed : T.Allows ⟨target⟩ op body) (heeds : Heeds A ⟨target⟩ op body) :
    Exchanges T A t target (c, .message ⟨target⟩ op body) (c.arrive t target op body) := by
  have fares : Fares T A t (c, .message ⟨target⟩ op body) (c.serve t ⟨target⟩ op body) := fares_serve t allowed heeds
  unfold arrive
  split
  next heq => rw [heq] at fares; exact ⟨fares, trivial, trivial⟩
  next heq => rw [heq] at fares; exact fares

theorem dials_pollCall (t : Ticket) (call : Call) (carries : call.exchange.Carries T call.target)
    (calls : call.exchange.Heeds A) :
    Dials T A t call.peer (c, call.exchange.hand call.target) (c.pollCall t call) := by
  obtain ⟨peer, target, limit, deadline, exchange⟩ := call
  cases exchange with
  | travelling arrival op body =>
    have arrived := exchanges_arrive (A := A) (c := c) t target carries (.of_calls calls)
    have still : Exchanges T A t target (c, .message ⟨target⟩ op body) (c, .waits (.travelling arrival op body)) :=
      ⟨.refl _, carries, calls⟩
    unfold pollCall
    dsimp only
    split
    next => exact dials_judge _ arrived
    next => exact dials_judge _ still
  | serving e =>
    have fares := fares_pollErrand (T := T) (A := A) (c := c) t e
    unfold pollCall
    dsimp only
    split
    next c₁ e' heq =>
      rw [heq] at fares
      have served : Exchanges T A t target (c, e.hand) (c₁, .waits (.serving e')) := ⟨fares, trivial, trivial⟩
      exact dials_judge _ served
    next c₁ outcome heq =>
      rw [heq] at fares
      have served : Exchanges T A t target (c, e.hand) (c₁, .ends (encodeReply outcome.reply)) := fares
      exact dials_judge ⟨peer, target, limit, deadline, .serving e⟩ served

theorem dials_call (t : Ticket) (p peer : NodeId) {request : Request String}
    (allowed : ∀ p, T.Allows p (request.encode .string).1 (request.encode .string).2)
    (calls : Reads A.calls (request.encode .string).1 (request.encode .string).2) :
    Dials T A t peer (c, .empty) (c.call t p peer request) := by
  unfold call
  split
  next => exact .refl _
  next h _ =>
    split
    next => exact .refl _
    next target _ =>
      have written : Paces T A t (c, .empty) (c, .message ⟨target⟩ _ _) := .single (.write ⟨target⟩ calls)
      unfold dial
      split
      next => exact .refl _
      next =>
        dsimp only
        generalize hx : Exchange.travelling _ _ _ = exchange
        have carries : exchange.Carries T target := hx ▸ allowed ⟨target⟩
        have calls : exchange.Heeds A := hx ▸ calls
        have letter : exchange.rest target = exchange.hand target := by rw [← hx]; rfl
        have written : Paces T A t (c, .empty) (c, exchange.hand target) := by rw [← hx]; exact written
        have begun : Dials T A t peer (c, .empty)
            (if c.net.delay target = 0 then c.pollCall t ⟨peer, target, h.timeout, c.now + h.timeout.millis, exchange⟩
            else (c.setTimer t .stage (c.now + c.net.delay target)).judge t
              ⟨peer, target, h.timeout, c.now + h.timeout.millis, exchange⟩ (.waits exchange)) := by
          split
          next =>
            have polled := dials_pollCall (A := A) (c := c) t
              ⟨peer, target, h.timeout, c.now + h.timeout.millis, exchange⟩ carries calls
            revert polled
            generalize c.pollCall t _ = r
            obtain ⟨c', p⟩ := r
            intro polled
            cases p with
            | waits call => exact ⟨written.trans polled.1, polled.2⟩
            | ends r => exact written.trans polled
          next =>
            have sent : Exchanges T A t target (c, .empty)
                (c.setTimer t .stage (c.now + c.net.delay target), .waits exchange) :=
              ⟨letter ▸ written.trans (.setTimer t .stage _), carries, calls⟩
            exact dials_judge _ sent
        revert begun
        generalize (if c.net.delay target = 0 then _ else _) = r
        obtain ⟨c', p⟩ := r
        intro begun
        cases p with
        | waits call => exact ⟨begun.1.trans (.setTimer t .limit _), begun.2⟩
        | ends r => exact begun

/-- At the end of a go the task is parked with what it has in hand, or it is over and has nothing. -/
def Treads (T : Traffic) (A : Audience) (t : Ticket) (s : Cluster × Hand) (c' : Cluster) : Prop :=
  (∃ c₁ left, Paces T A t s (c₁, left.hand) ∧ left.Carries T ∧ left.Heeds A ∧ c' = c₁.park t left) ∨
    ∃ c₁ said, Paces T A t s (c₁, .empty) ∧ c' = c₁.finish t said

namespace Treads

variable {s s' : Cluster × Hand}

theorem parked (left : Task) (h : Paces T A t s (c, left.hand)) (carries : left.Carries T) (heeds : left.Heeds A) :
    Treads T A t s (c.park t left) :=
  .inl ⟨c, left, h, carries, heeds, rfl⟩

theorem finished (h : Paces T A t s (c, .empty)) (said : Option Answer) : Treads T A t s (c.finish t said) :=
  .inr ⟨c, said, h, rfl⟩

theorem after (h : Paces T A t s s') (h' : Treads T A t s' c') : Treads T A t s c' := by
  rcases h' with ⟨c₁, left, paces, carries, heeds, rfl⟩ | ⟨c₁, said, paces, rfl⟩
  · exact parked _ (h.trans paces) carries heeds
  · exact finished (h.trans paces) said

end Treads

/-- A task that is over may as well be over before it wakes another one. -/
theorem finish_wake (c : Cluster) (t w : Ticket) (said : Option Answer) :
    (c.finish t said).wake w = (c.wake w).finish t said := by
  unfold wake
  split
  next h =>
    have h : c.front = some w := h
    rw [if_pos h]
    rfl
  next h =>
    have h : ¬ c.front = some w := h
    rw [if_neg h]
    split
    next h' =>
      have h' : w ∈ c.ready := h'
      rw [if_pos h']
    next h' =>
      have h' : w ∉ c.ready := h'
      rw [if_neg h']
      rfl

/-- A message is delivered when its time has come. -/
theorem resume_handed {task : Task} {target : String} {op : UInt16} {body : List UInt8}
    (handed : task.handed? c.now = some (target, op, body)) : c.resume t task = c.deliver t target op body := by
  rcases Task.handed?_cases handed with rfl | ⟨arrival, soon, rfl⟩
  · rw [resume, if_pos rfl]
  · rw [resume, if_pos soon]

theorem treads_carryOn {s : Cluster × Hand} {p : Progress Errand Outcome} (h : Fares T A t s (c, p))
    (client : Client) : Treads T A t s (c.carryOn t client p) := by
  cases p with
  | waits e => exact .parked (.errand e client) (h.trans (paces_rest e)) trivial trivial
  | ends outcome =>
    cases client with
    | caller => exact .finished h _
    | requester => exact .finished h _

theorem treads_served (said : ReplyBytes → Option Answer) {s : Cluster × Hand}
    {r : Cluster × Progress Errand ReplyBytes} : Fares T A t s r →
    Treads T A t s (match r with
      | (c, .waits e) => c.park t (.errand e .requester)
      | (c, .ends bytes) => c.finish t (said bytes)) := by
  intro h
  obtain ⟨c', p⟩ := r
  cases p with
  | waits e => exact .parked (.errand e .requester) (h.trans (paces_rest e)) trivial trivial
  | ends bytes => exact .finished h _

theorem treads_deliver (target : String) {op : UInt16} {body : List UInt8} (allowed : T.Allows ⟨target⟩ op body)
    (heeds : Heeds A ⟨target⟩ op body) :
    Treads T A t (c, .message ⟨target⟩ op body) (c.deliver t target op body) :=
  treads_served (fun _ => none) (fares_serve t allowed heeds)

theorem treads_conclude (runner : Option Ticket) (verdict : Verdict) :
    Treads T A t (c, .empty) (c.conclude t runner verdict) := by
  cases runner with
  | none => exact .finished (.refl _) _
  | some r =>
    have kept : Paces T A t (c, .empty) ({ c with verdicts := c.verdicts.insert t verdict }, .empty) :=
      .aside ⟨rfl, rfl, rfl, rfl, rfl, rfl⟩
    show Treads T A t (c, .empty) (({ c with verdicts := c.verdicts.insert t verdict }.finish t none).wake r)
    rw [finish_wake]
    exact .finished (kept.trans (.wake r)) none

theorem paces_refreshed {p peer : NodeId} (long : Bool) (heeds : ∀ long free, A.hears p (.free peer long free))
    (r : Except WorkError Reply) : Paces T A t (c, x) (c.refreshed p peer long r, x) := by
  unfold refreshed
  split
  next free _ => exact .single (.learn (heeds long free))
  next => exact .refl _

theorem treads_refreshLong {p peer : NodeId} (heeds : ∀ long free, A.hears p (.free peer long free)) :
    Treads T A t (c, .empty) (c.refreshLong t p peer) := by
  have called := dials_call (T := T) (A := A) (c := c) t p peer (allowed_encode (plain_freeRequest true)) (calls_encode rfl)
  unfold refreshLong
  split
  next call heq =>
    rw [heq] at called
    obtain ⟨paces, carries, calls, same⟩ := called
    exact .parked (.call call (.refresh p true)) paces carries ⟨calls, same ▸ heeds⟩
  next heq =>
    rw [heq] at called
    exact .finished (called.trans (paces_refreshed true heeds _)) none

theorem treads_replied {peer : NodeId} {purpose : Purpose} (heeds : purpose.Heeds A peer)
    (r : Except WorkError Reply) : Treads T A t (c, .empty) (c.replied t peer purpose r) := by
  cases purpose with
  | submit mode => exact .finished (.refl _) _
  | ping since => exact .finished (.refl _) _
  | free => exact .finished (.refl _) _
  | refresh p long =>
    have told : Paces T A t (c, .empty) (c.refreshed p peer long r, .empty) := paces_refreshed long heeds r
    cases long with
    | true => exact .finished told none
    | false => exact .after told (treads_refreshLong heeds)

theorem treads_called {peer : NodeId} {purpose : Purpose} (heeds : purpose.Heeds A peer) {s : Cluster × Hand}
    {r : Cluster × Progress Call (Except WorkError Reply)} : Dials T A t peer s r →
    Treads T A t s (match r with
      | (c, .waits call) => c.park t (.call call purpose)
      | (c, .ends r) => c.replied t peer purpose r) := by
  intro h
  obtain ⟨c', p⟩ := r
  cases p with
  | waits call =>
    obtain ⟨paces, carries, calls, same⟩ := h
    exact .parked (.call call purpose) paces carries ⟨calls, same ▸ heeds⟩
  | ends r => exact .after h (treads_replied heeds r)

theorem treads_beginCall (p peer : NodeId) {request : Request String} {purpose : Purpose}
    (allowed : ∀ p, T.Allows p (request.encode .string).1 (request.encode .string).2)
    (calls : Reads A.calls (request.encode .string).1 (request.encode .string).2)
    (heeds : purpose.Heeds A peer) : Treads T A t (c, .empty) (c.beginCall t p peer request purpose) :=
  treads_called heeds (dials_call t p peer allowed calls)

theorem notice?_submit (mode : Mode) (work : Work) : (Request.submit mode work : Request String).notice? = none := by
  cases mode <;> rfl

theorem treads_route (p : NodeId) (mode : Mode) (work : Work) :
    Treads T A t (c, .empty) (c.route t p mode work) := by
  have here : ∀ c₁, Paces T A t (c, .empty) (c₁, .promised p work.longRunning) →
      Treads T A t (c, .empty) ((c₁.execute t p mode work).1.carryOn t .caller (c₁.execute t p mode work).2) :=
    fun c₁ paces => treads_carryOn (Fares.after paces (fares_execute t p mode work)) .caller
  unfold route
  dsimp only
  split
  next heq => exact .finished (.single (.pass heq nofun)) _
  next heq =>
    have passed : Paces T A t (c, .empty) (_, .empty) := .single (.pass heq nofun)
    exact .after passed (treads_beginCall p _ (allowed_encode (plain_submit mode work))
      (calls_encode (notice?_submit mode work)) trivial)
  next heq => exact here _ (.single (.keep heq (.inr rfl)))
  next heq => exact here _ (.single (.keep heq (.inl rfl)))

theorem treads_retire (p : NodeId) (work : Work) (waiter : Option Ticket) (verdict : Verdict) :
    Treads T A t (c, .running p work.longRunning) (c.retire t p work waiter verdict) := by
  have back : Paces T A t (c, .running p work.longRunning)
      ((c.withLane p work.longRunning Lane.giveBack).1.wakeAll
        ((c.withLane p work.longRunning Lane.giveBack).2.bind id).toList, .returned p work.longRunning) := by
    refine Paces.trans ?_ (.wakeAll _)
    rcases withLane_cases c p work.longRunning Lane.giveBack with ⟨next, some⟩ | ⟨same, bare⟩
    · exact .single (.giveBack (Prod.ext rfl some))
    · rw [same]
      exact .single (.vain bare rfl rfl)
  have told : ∀ success, Paces T A t (c, .running p work.longRunning) (((c.withLane p work.longRunning
      Lane.giveBack).1.wakeAll ((c.withLane p work.longRunning Lane.giveBack).2.bind id).toList).complete p work success,
      .empty) := by
    intro success
    have noted : ∀ c₁ : Cluster, Paces T A t (c₁, .returned p work.longRunning)
        (c₁.record (.completed p work success), .returned p work.longRunning) := fun _ => .single (.note rfl)
    exact (back.trans (noted _)).trans (.single (.complete p work.longRunning success))
  unfold retire
  dsimp only
  generalize done : Cluster.complete _ p work _ = c₁
  have told : Paces T A t (c, .running p work.longRunning) (c₁, .empty) := done ▸ told _
  cases waiter with
  | none => exact .finished told none
  | some w =>
    have kept : Paces T A t (c₁, .empty) ({ c₁ with verdicts := c₁.verdicts.insert t verdict }, .empty) :=
      .aside ⟨rfl, rfl, rfl, rfl, rfl, rfl⟩
    show Treads T A t _ (({ c₁ with verdicts := c₁.verdicts.insert t verdict }.finish t none).wake w)
    rw [finish_wake]
    exact .finished (told.trans (kept.trans (.wake w))) none

theorem treads_runner (p : NodeId) (work : Work) (waiter handler : Option Ticket) :
    Treads T A t (c, .running p work.longRunning) (c.pollRunner t p work waiter handler) := by
  cases handler with
  | none =>
    have spawned : Paces T A t (c, .running p work.longRunning)
        ((c.spawn (.handler p work (some t) .fresh)).1, .running p work.longRunning) :=
      .single (.spawn trivial trivial rfl)
    exact .parked (.runner p work waiter _) spawned trivial trivial
  | some h =>
    rw [pollRunner]
    cases c.verdicts.get? h with
    | some verdict =>
      have erased : Paces T A t (c, .running p work.longRunning)
          ({ c with verdicts := c.verdicts.erase h }, .running p work.longRunning) := .aside ⟨rfl, rfl, rfl, rfl, rfl, rfl⟩
      exact .after erased (treads_retire p work waiter verdict)
    | none => exact .parked (.runner p work waiter _) (.refl _) trivial trivial

/-- A go at a task is made of paces. -/
theorem treads_resume {task : Task} (sent : ∀ target r, c.net.connected.contains target → T.cast r → T.sent target r)
    (carries : task.Carries T) (heeds : task.Heeds A)
    (allowed : ∀ target op body, task.handed? c.now = some (target, op, body) → T.Allows ⟨target⟩ op body)
    (heard : ∀ p op body, task.served? c.now = some (p, op, body) → Heeds A p op body) :
    Treads T A t (c, task.hand) (c.resume t task) := by
  cases task with
  | submit p mode work routed =>
    cases routed with
    | true => exact treads_route p mode work
    | false => exact treads_carryOn (fares_submitHere t p mode work) .caller
  | ask p peer request purpose => exact treads_beginCall p peer carries heeds.1 heeds.2
  | serve p op body => exact treads_served (fun bytes => some (.reply bytes)) (fares_serve t carries (heard p op body rfl))
  | errand e client => exact treads_carryOn (fares_pollErrand t e) client
  | call call purpose => exact treads_called heeds.2 (dials_pollCall t call carries heeds.1)
  | broadcast sender targets op body =>
    refine .finished (.single (.post sender targets ?_)) none
    exact fun target there r hd => sent target r there (carries r hd)
  | post target op body delay =>
    rw [resume]
    split
    next now =>
      have handed : (Task.post target op body delay).handed? c.now = some (target, op, body) := if_pos now
      exact treads_deliver target (allowed target op body handed)
        (heard ⟨target⟩ op body (congrArg (Option.map _) handed))
    next => exact .parked (.deliver target op body _) (.setTimer t .stage _) carries trivial
  | deliver target op body arrival =>
    rw [resume]
    split
    next now =>
      have handed : (Task.deliver target op body arrival).handed? c.now = some (target, op, body) := if_pos now
      exact treads_deliver target (allowed target op body handed)
        (heard ⟨target⟩ op body (congrArg (Option.map _) handed))
    next => exact .parked (.deliver target op body _) (.refl _) carries trivial
  | refresh p peer =>
    rw [resume]
    split
    next => exact treads_beginCall p peer (allowed_encode (plain_freeRequest false)) (calls_encode rfl) heeds
    next => exact .finished (.refl _) none
  | runner p work waiter handler => exact treads_runner p work waiter handler
  | handler p work runner stage =>
    have polled : Paces T A t (c, .empty) ((c.pollHandler t p work stage).1, .empty) := paces_pollHandler t p work stage
    rw [resume]
    split
    next heq =>
      rw [heq] at polled
      exact .parked (.handler p work runner _) polled trivial trivial
    next heq =>
      rw [heq] at polled
      exact .after polled (treads_conclude runner _)

end Cluster

end Workshare
