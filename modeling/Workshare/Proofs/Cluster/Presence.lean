import Workshare.Proofs.Cluster.Shifts

namespace Workshare

open Cluster

/-- A deed that leaves the network alone, and by which a manager does not learn of members but through its transport. -/
def Deed.isOwn : Deed → Bool
  | .network _ => false
  | d => d.isInner

/-- What may happen to a cluster to which nobody sends messages from outside: any such deed, and a network that becomes
slow or is cut in two. -/
inductive Incident
  | deed (d : Deed) (own : d.isOwn)
  | delay (name : String) (millis : Nat)
  | isolate (name : String)
  | heal (name : String)

def Incident.starts? : Incident → Option NodeId
  | .deed (.start n) _ => some n
  | _ => none

def Incident.stops? : Incident → Option NodeId
  | .deed (.stop n) _ => some n
  | _ => none

namespace Cluster

def meets (c : Cluster) : Incident → Cluster
  | .deed d _ => c.does d
  | .delay name millis => { c with net := c.net.setDelay name millis }
  | .isolate name => { c with net := c.net.isolate name }
  | .heal name => { c with net := c.net.heal name }

/-- The request that a host gets when a task goes on, if the task is a message whose time has come. -/
def given? (c : Cluster) (t : Ticket) : Option (NodeId × Request String) :=
  (c.tasks.get? t).bind fun task => (task.handed? c.now).bind fun (target, op, body) =>
    (Request.decode .string op body).toOption.map (⟨target⟩, ·)

theorem given?_of_handed {c : Cluster} {t : Ticket} {task : Task} {target : String} {op : UInt16} {body : List UInt8}
    {q : Request String} (ht : c.tasks.get? t = some task) (handed : task.handed? c.now = some (target, op, body))
    (hd : Request.decode .string op body = .ok q) : c.given? t = some (⟨target⟩, q) := by
  rw [given?, ht, Option.bind_some, handed, Option.bind_some]
  dsimp only
  rw [hd]
  rfl

/-- Nothing is given by a task that is no message, or none that can be read. -/
theorem given?_of_unread {c : Cluster} {t : Ticket} {task : Task} (ht : c.tasks.get? t = some task)
    (unread : ∀ target op body, task.handed? c.now = some (target, op, body) →
      ∃ e, Request.decode .string op body = .error e) : c.given? t = none := by
  rw [given?, ht, Option.bind_some, Option.bind_eq_none_iff]
  rintro ⟨target, op, body⟩ handed
  obtain ⟨e, hd⟩ := unread target op body handed
  dsimp only
  rw [hd]
  rfl

theorem deliver_join {c : Cluster} {t : Ticket} {target : String} {op : UInt16} {body : List UInt8} {p : NodeId}
    {a : String} (hd : Request.decode .string op body = .ok (.join p a)) :
    c.deliver t target op body = (c.addMember ⟨target⟩ p a).finish t none := by
  unfold deliver serve
  rw [hd]
  rfl

theorem deliver_leave {c : Cluster} {t : Ticket} {target : String} {op : UInt16} {body : List UInt8} {p : NodeId}
    (hd : Request.decode .string op body = .ok (.leave p)) :
    c.deliver t target op body = (c.removeMember ⟨target⟩ p).finish t none := by
  unfold deliver serve
  rw [hd]
  rfl

end Cluster

structure Presence where
  cluster : Cluster
  /-- The nodes that have been started so far. -/
  begun : List NodeId
  /-- `(x, y)` if host `x` has been told that `y` joins when `y` had gone, and not since then that `y` leaves. -/
  late : List (NodeId × NodeId)

namespace Presence

def start (hosts : List (NodeId × Host)) : Presence :=
  ⟨.start hosts, [], []⟩

/-- Who is late after an incident. -/
def overdue (r : Presence) : Incident → List (NodeId × NodeId)
  | .deed (.go t) _ =>
    match r.cluster.given? t with
    | some (x, .join y _) => if r.cluster.net.connected.contains y.text then r.late else (x, y) :: r.late
    | some (x, .leave y) => r.late.filter (· ≠ (x, y))
    | _ => r.late
  | _ => r.late

def take (r : Presence) (i : Incident) : Presence :=
  ⟨r.cluster.meets i, i.starts?.toList ++ r.begun, r.overdue i⟩

def run (r : Presence) (course : List Incident) : Presence :=
  course.foldl take r

def connected (r : Presence) (n : NodeId) : Bool :=
  r.cluster.net.connected.contains n.text

end Presence

/-- Whoever joins or leaves has been started, whoever leaves has gone, and so have targets been started. -/
def Traffic.among (begun : List NodeId) (connected : NodeId → Bool) : Traffic where
  cast
    | .join y _ => y ∈ begun
    | .leave _ => False
    | _ => True
  sent target
    | .join y _ => y ∈ begun ∧ ⟨target⟩ ∈ begun
    | .leave y => y ∈ begun ∧ connected y = false ∧ ⟨target⟩ ∈ begun
    | _ => True
  served _ _ := False

namespace Presence

/-- The standings in the book of host `x` are those that the record of a run gives. -/
structure Shows (r : Presence) (x : NodeId) (s : NodeId → Standing String) : Prop where
  blank : x ∉ r.begun → ∀ p, s p = .unknown
  viewed : r.connected x → ∀ p, (s p).isViewed = r.connected p
  known : r.connected x → ∀ p, (s p).isKnown ↔ r.connected p ∨ (x, p) ∈ r.late

structure Sound (r : Presence) : Prop where
  agrees : r.cluster.Agrees fun _ => True
  fits : ∀ x h, r.cluster.host? x = some h → Fits x.text
  begun : ∀ n, r.connected n → n ∈ r.begun
  late : ∀ x y, (x, y) ∈ r.late → x ∈ r.begun ∧ y ∈ r.begun ∧ r.connected y = false
  books : ∀ x h, r.cluster.host? x = some h → r.Shows x h.book.standing
  traffic : ∀ v task, r.cluster.tasks.get? v = some task → task.Carries (.among r.begun r.connected)

end Presence

namespace Traffic

variable {begun begun' : List NodeId} {connected connected' : NodeId → Bool}

theorem among_plain {r : Request String} (plain : r.isMembership = false) : (among begun connected).cast r := by
  cases r with
  | join y a => cases plain
  | leave y => cases plain
  | _ => trivial

theorem among_unserved (p : NodeId) (r : Request String) : ¬ (among begun connected).served p r :=
  fun served => served

/-- What may be sent is on its way to somebody who has been started. -/
theorem among_sent (all : ∀ n, connected n → n ∈ begun) {target : String} {r : Request String}
    (there : connected ⟨target⟩) (cast : (among begun connected).cast r) : (among begun connected).sent target r := by
  cases r with
  | join y a => exact ⟨cast, all _ there⟩
  | leave y => exact absurd cast nofun
  | _ => trivial

/-- More nodes have been started, and whoever had been started and had gone is still gone. -/
theorem carries_among (more : ∀ n ∈ begun, n ∈ begun') (gone : ∀ n ∈ begun, connected n = false → connected' n = false)
    {task : Task} (h : task.Carries (among begun connected)) : task.Carries (among begun' connected') := by
  have cast : ∀ r, (among begun connected).cast r → (among begun' connected').cast r := by
    intro r hr
    cases r with
    | join y a => exact more y hr
    | leave y => exact hr
    | _ => trivial
  have sent : ∀ target r, (among begun connected).sent target r → (among begun' connected').sent target r := by
    intro target r hr
    cases r with
    | join y a => exact ⟨more y hr.1, more _ hr.2⟩
    | leave y => exact ⟨more y hr.1, gone y hr.1 hr.2.1, more _ hr.2.2⟩
    | _ => trivial
  cases task with
  | broadcast sender targets op body => exact fun r hd => cast r (h r hd)
  | post target op body delay => exact fun r hd => sent target r (h r hd)
  | deliver target op body arrival => exact fun r hd => sent target r (h r hd)
  | ask host peer request purpose => exact h
  | serve host op body => exact h
  | call x purpose =>
    obtain ⟨peer, target, limit, deadline, exchange⟩ := x
    cases exchange with
    | travelling arrival op body => exact h
    | serving e => trivial
  | _ => trivial

end Traffic

namespace Presence

variable {r q : Presence} {f : Shift} {net : Loopback} {c' : Cluster}

theorem Sound.shifts (h : r.Sound) (shifted : Shifts (.among q.begun q.connected) f net r.cluster q.cluster)
    (agrees : q.cluster.Agrees fun _ => True) (more : ∀ n ∈ r.begun, n ∈ q.begun)
    (gone : ∀ n ∈ r.begun, r.connected n = false → q.connected n = false)
    (begun : ∀ n, q.connected n → n ∈ q.begun)
    (late : ∀ x y, (x, y) ∈ q.late → x ∈ q.begun ∧ y ∈ q.begun ∧ q.connected y = false)
    (shown : ∀ x s, r.Shows x s → q.Shows x fun p => f x p (s p)) : q.Sound := by
  refine ⟨agrees, ?_, begun, late, ?_, ?_⟩
  · intro x y hx
    obtain ⟨z, hz, _⟩ := shifted.books x y hx
    exact h.fits x z hz
  · intro x y hx
    obtain ⟨z, hz, same⟩ := shifted.books x y hx
    have moved := shown x _ (h.books x z hz)
    rwa [← funext same] at moved
  · intro v task hv
    rcases shifted.tasks v task hv with carries | hv
    · exact carries
    · exact Traffic.carries_among more gone (h.traffic v task hv)

theorem Sound.of_wired (h : r.Sound) {late : List (NodeId × NodeId)}
    (shifted : Shifts (.among r.begun r.connected) f net r.cluster c')
    (wired : net.connected = r.cluster.net.connected) (agrees : c'.Agrees fun _ => True)
    (gone : ∀ x y, (x, y) ∈ late → x ∈ r.begun ∧ y ∈ r.begun ∧ r.connected y = false)
    (shown : ∀ x s, r.Shows x s → Shows ⟨r.cluster, r.begun, late⟩ x fun p => f x p (s p)) :
    Sound ⟨c', r.begun, late⟩ := by
  have same : Presence.connected ⟨c', r.begun, late⟩ = r.connected := by
    funext n
    unfold Presence.connected
    dsimp only
    rw [shifted.net, wired]
  have kept : Shifts (.among r.begun (Presence.connected ⟨c', r.begun, late⟩)) f net r.cluster c' := by
    rwa [same]
  refine h.shifts (q := ⟨c', r.begun, late⟩) kept agrees (fun _ hn => hn) ?_ ?_ ?_ ?_
  · rw [same]
    exact fun _ _ hn => hn
  · rw [same]
    exact h.begun
  · rw [same]
    exact gone
  · intro x s hs
    have shows := shown x s hs
    refine ⟨shows.blank, ?_, ?_⟩
    · rw [same]
      exact shows.viewed
    · rw [same]
      exact shows.known

theorem Sound.still (h : r.Sound) (shifted : Shifts (.among r.begun r.connected) .still net r.cluster c')
    (wired : net.connected = r.cluster.net.connected) (agrees : c'.Agrees fun _ => True) :
    Sound ⟨c', r.begun, r.late⟩ :=
  h.of_wired shifted wired agrees h.late fun _ _ shows => shows

theorem Sound.resume (h : r.Sound) (t : Ticket) {task : Task} (carries : task.Carries (.among r.begun r.connected))
    (served : ∀ target op body, task.handed? r.cluster.now = some (target, op, body) →
      (Traffic.among r.begun r.connected).Allows ⟨target⟩ op body) :
    Sound ⟨r.cluster.resume t task, r.begun, r.late⟩ := by
  have goes : Walks (.among r.begun r.connected) ⟨""⟩ t (r.cluster, task.due ⟨""⟩) (r.cluster.resume t task) :=
    walks_resume (fun _ => Traffic.among_plain) t (fun _ _ => Traffic.among_sent h.begun) carries served
  exact h.still (.walks Traffic.among_unserved goes) rfl (h.agrees.resume (fun _ _ _ => trivial) t task)

theorem mem_late_join {x y u v : NodeId} : (u, v) ∈ (if r.connected y then r.late else (x, y) :: r.late) ↔
    (u, v) ∈ r.late ∨ r.connected y = false ∧ u = x ∧ v = y := by
  cases r.connected y <;> simp [or_comm]

theorem Shows.join {x y z : NodeId} {a : String} {s : NodeId → Standing String} (hx : x ∈ r.begun)
    (shows : r.Shows z s) :
    Shows ⟨r.cluster, r.begun, if r.connected y then r.late else (x, y) :: r.late⟩ z fun p =>
      Shift.news x (.join y a) z p (s p) := by
  refine ⟨?_, ?_, ?_⟩
  · intro hz p
    have elsewhere : z ≠ x := fun e => hz (e ▸ hx)
    show (if z = x then _ else s p) = _
    rw [if_neg elsewhere]
    exact shows.blank hz p
  · intro hz p
    have kept : (Shift.news x (.join y a) z p (s p)).isViewed = (s p).isViewed := by
      unfold Shift.news
      split
      next => exact Standing.isViewed_after_join p (s p) y a
      next => rfl
    rw [kept]
    exact shows.viewed hz p
  · intro hz p
    have known : (Shift.news x (.join y a) z p (s p)).isKnown = (decide (z = x ∧ y = p) || (s p).isKnown) := by
      unfold Shift.news
      by_cases here : z = x
      · rw [if_pos here, Standing.isKnown_after_join]
        simp [here]
      · simp [here]
    have before := shows.known hz p
    rw [known, Bool.or_eq_true, decide_eq_true_eq, before, mem_late_join]
    show _ ↔ r.connected p ∨ _
    constructor
    · rintro (⟨rfl, rfl⟩ | there | late)
      · cases hc : r.connected y with
        | true => exact .inl rfl
        | false => exact .inr (.inr ⟨rfl, rfl, rfl⟩)
      · exact .inl there
      · exact .inr (.inl late)
    · rintro (there | late | ⟨_, rfl, rfl⟩)
      · exact .inr (.inl there)
      · exact .inr (.inr late)
      · exact .inl ⟨rfl, rfl⟩

theorem Sound.join (h : r.Sound) {x y : NodeId} {a : String} (hx : x ∈ r.begun) (hy : y ∈ r.begun)
    (shifted : Shifts (.among r.begun r.connected) (.news x (.join y a)) r.cluster.net r.cluster c')
    (agrees : c'.Agrees fun _ => True) :
    Sound ⟨c', r.begun, if r.connected y then r.late else (x, y) :: r.late⟩ := by
  refine h.of_wired shifted rfl agrees ?_ fun z s shows => shows.join hx
  intro u v huv
  rcases mem_late_join.mp huv with huv | ⟨gone, rfl, rfl⟩
  · exact h.late u v huv
  · exact ⟨hx, hy, gone⟩

theorem Shows.leave {x y z : NodeId} {s : NodeId → Standing String} (gone : r.connected y = false)
    (shows : r.Shows z s) :
    Shows ⟨r.cluster, r.begun, r.late.filter (· ≠ (x, y))⟩ z fun p => Shift.news x (.leave y) z p (s p) := by
  refine ⟨?_, ?_, ?_⟩
  · intro hz p
    have blank := shows.blank hz p
    show (if z = x then (s p).after p (.leave y) else s p) = _
    rw [blank, Standing.after_leave, ite_self, ite_self]
  · intro hz p
    have before := shows.viewed hz p
    show (if z = x then (s p).after p (.leave y) else s p).isViewed = r.connected p
    split
    next =>
      rw [Standing.isViewed_after_leave, before]
      by_cases hp : y = p
      · rw [← hp, gone]
        simp
      · simp [hp]
    next => exact before
  · intro hz p
    have before := shows.known hz p
    show (if z = x then (s p).after p (.leave y) else s p).isKnown ↔
      r.connected p ∨ (z, p) ∈ r.late.filter (· ≠ (x, y))
    by_cases here : z = x
    · subst here
      rw [if_pos rfl, Standing.isKnown_after_leave]
      by_cases hp : y = p
      · subst hp
        simp [gone]
      · simp [hp, Ne.symm hp, before]
    · simp [here, before]

theorem Sound.leave (h : r.Sound) {x y : NodeId} (gone : r.connected y = false)
    (shifted : Shifts (.among r.begun r.connected) (.news x (.leave y)) r.cluster.net r.cluster c')
    (agrees : c'.Agrees fun _ => True) : Sound ⟨c', r.begun, r.late.filter (· ≠ (x, y))⟩ := by
  refine h.of_wired shifted rfl agrees ?_ fun z s shows => shows.leave gone
  intro u v huv
  exact h.late u v (List.mem_filter.mp huv).1

/-- At a host that was connected before, a view leaves those that are listed and those that are late. -/
theorem Shows.isKnown_views (h : r.Sound) {x : NodeId} {s : NodeId → Standing String} (shows : r.Shows x s)
    (was : r.connected x) (listed : net.connected.contains x.text) (p : NodeId) :
    (Shift.views net x p (s p)).isKnown ↔ net.connected.contains p.text ∨ (x, p) ∈ r.late := by
  have known := shows.known was p
  rw [Shift.isKnown_views listed, shows.viewed was p, Bool.or_eq_true, Bool.and_eq_true, known, Bool.not_eq_true']
  constructor
  · rintro (there | ⟨there | late, gone⟩)
    · exact .inl there
    · rw [gone] at there
      cases there
    · exact .inr late
  · rintro (there | late)
    · exact .inl there
    · exact .inr ⟨.inr late, (h.late x p late).2.2⟩

theorem connected_start {n : NodeId} (wired : q.cluster.net = r.cluster.net.connect n.text) (p : NodeId) :
    q.connected p = (decide (p = n) || r.connected p) := by
  obtain ⟨p⟩ := p
  obtain ⟨n⟩ := n
  rw [Presence.connected, wired, Loopback.connect, Table.contains_insert]
  simp [Presence.connected]

theorem connected_stop {n : NodeId}
    (wired : q.cluster.net =
      if r.cluster.net.connected.contains n.text then r.cluster.net.disconnect n.text else r.cluster.net)
    (p : NodeId) : q.connected p = (!decide (p = n) && r.connected p) := by
  obtain ⟨p⟩ := p
  obtain ⟨n⟩ := n
  rw [Presence.connected, Presence.connected, wired]
  split
  next =>
    rw [Loopback.disconnect, Table.contains_erase]
    simp
  next unlisted =>
    by_cases hp : p = n
    · simp [hp, unlisted]
    · simp [hp]

/-- When a node starts for the first time, nobody is late for it, and it is late for nobody. -/
theorem Shows.start (h : r.Sound) {n : NodeId} (new : n ∉ r.begun) (wired : c'.net = r.cluster.net.connect n.text)
    {x : NodeId} {s : NodeId → Standing String} (shows : r.Shows x s) :
    Shows ⟨c', n :: r.begun, r.late⟩ x fun p =>
      (Shift.views (r.cluster.net.connect n.text)).andThen (.news n (.join n n.text)) x p (s p) := by
  have listed : ∀ p : NodeId, (r.cluster.net.connect n.text).connected.contains p.text =
      Presence.connected ⟨c', n :: r.begun, r.late⟩ p := by
    intro p
    rw [Presence.connected, wired]
  have connected : ∀ p, Presence.connected ⟨c', n :: r.begun, r.late⟩ p = (decide (p = n) || r.connected p) :=
    connected_start wired
  refine ⟨?_, ?_, ?_⟩
  · intro hx p
    have hx : x ≠ n ∧ x ∉ r.begun := not_or.mp fun e => hx (List.mem_cons.mpr e)
    have gone : Presence.connected ⟨c', n :: r.begun, r.late⟩ x = false := by
      rw [connected, decide_eq_false hx.1, Bool.false_or]
      exact Bool.eq_false_iff.mpr fun there => hx.2 (h.begun x there)
    show (if x = n then _ else if _ then _ else s p) = _
    rw [listed, gone, if_neg hx.1, if_neg Bool.false_ne_true]
    exact shows.blank hx.2 p
  · intro hx p
    have seen := Shift.isViewed_views (by rw [listed]; exact hx) p (s p)
    rw [listed] at seen
    show (if x = n then (Shift.views _ x p (s p)).after p (.join n n.text) else Shift.views _ x p (s p)).isViewed = _
    split
    next => rw [Standing.isViewed_after_join, seen]
    next => exact seen
  · intro hx p
    have here : (r.cluster.net.connect n.text).connected.contains x.text := by
      rw [listed]
      exact hx
    show (if x = n then (Shift.views _ x p (s p)).after p (.join n n.text) else Shift.views _ x p (s p)).isKnown ↔
      _ ∨ (x, p) ∈ r.late
    rw [← listed p]
    by_cases own : x = n
    · subst own
      -- nothing comes late to a node that has not begun
      have nobody : (x, p) ∉ r.late := fun hp => new (h.late x p hp).1
      have self : x = p → (r.cluster.net.connect x.text).connected.contains p.text := fun e => e ▸ here
      rw [if_pos rfl, Standing.isKnown_after_join, Shift.isKnown_views here, shows.blank new p]
      simp only [Standing.isKnown_unknown, Bool.false_and, Bool.or_false, Bool.or_eq_true, decide_eq_true_eq, nobody,
        or_false]
      exact ⟨fun hp => hp.elim self id, .inr⟩
    · have was : r.connected x := by
        rw [connected, decide_eq_false own] at hx
        exact hx
      rw [if_neg own]
      exact shows.isKnown_views h was here p

/-- A connected node is missed by the others when it stops. -/
theorem Shows.disconnect (h : r.Sound) {n : NodeId} (wired : c'.net = r.cluster.net.disconnect n.text)
    (connected : ∀ p, Presence.connected ⟨c', r.begun, r.late⟩ p = (!decide (p = n) && r.connected p))
    {x : NodeId} {s : NodeId → Standing String} (shows : r.Shows x s) :
    Shows ⟨c', r.begun, r.late⟩ x fun p =>
      (Shift.views (r.cluster.net.disconnect n.text)).andThen (.clears n) x p (s p) := by
  have listed : ∀ p : NodeId, (r.cluster.net.disconnect n.text).connected.contains p.text =
      Presence.connected ⟨c', r.begun, r.late⟩ p := by
    intro p
    rw [Presence.connected, wired]
  have stays : Presence.connected ⟨c', r.begun, r.late⟩ x → x ≠ n ∧ r.connected x := by
    intro hx
    rwa [connected, Bool.and_eq_true, Bool.not_eq_true', decide_eq_false_iff_not] at hx
  refine ⟨?_, ?_, ?_⟩
  · intro hx p
    have gone : r.connected x = false := Bool.eq_false_iff.mpr fun there => hx (h.begun x there)
    show (if x = n then _ else if _ then _ else s p) = _
    rw [listed, connected, gone, Bool.and_false, if_neg Bool.false_ne_true, shows.blank hx, ite_self]
  · intro hx p
    show (if x = n then _ else Shift.views _ x p (s p)).isViewed = _
    rw [if_neg (stays hx).1, Shift.isViewed_views (by rw [listed]; exact hx), listed]
  · intro hx p
    show (if x = n then _ else Shift.views _ x p (s p)).isKnown ↔ _
    rw [if_neg (stays hx).1, shows.isKnown_views h (stays hx).2 (by rw [listed]; exact hx), listed]

/-- If a node that is not connected stops, it forgets what it knows, and others learn nothing. -/
theorem Shows.forget {n : NodeId} (absent : r.connected n = false) (wired : c'.net = r.cluster.net) {x : NodeId}
    {s : NodeId → Standing String} (shows : r.Shows x s) :
    Shows ⟨c', r.begun, r.late⟩ x fun p => Shift.still.andThen (.clears n) x p (s p) := by
  have same : ∀ p, Presence.connected ⟨c', r.begun, r.late⟩ p = r.connected p := by
    intro p
    rw [Presence.connected, wired]
    rfl
  have other : Presence.connected ⟨c', r.begun, r.late⟩ x → x ≠ n ∧ r.connected x := by
    intro hx
    rw [same] at hx
    exact ⟨fun e => Bool.false_ne_true (absent.symm.trans (e ▸ hx)), hx⟩
  refine ⟨?_, ?_, ?_⟩
  · intro hx p
    show (if x = n then _ else s p) = _
    rw [shows.blank hx, ite_self]
  · intro hx p
    show (if x = n then _ else s p).isViewed = _
    rw [if_neg (other hx).1, same]
    exact shows.viewed (other hx).2 p
  · intro hx p
    show (if x = n then _ else s p).isKnown ↔ _
    rw [if_neg (other hx).1, same]
    exact shows.known (other hx).2 p

theorem Sound.start (h : r.Sound) {n : NodeId} (new : n ∉ r.begun) :
    Sound ⟨r.cluster.startNode n, n :: r.begun, r.late⟩ := by
  have cast : (r.cluster.host? n).isSome → ∀ connected, Reads (Traffic.among (n :: r.begun) connected).cast
      (Request.encode .string (.join n n.text)).1 (Request.encode .string (.join n n.text)).2 := by
    intro there connected q hq
    obtain ⟨x, hx⟩ := Option.isSome_iff_exists.mp there
    have fits := h.fits n x hx
    rw [Request.decode_join fits fits] at hq
    cases hq
    exact List.mem_cons_self
  have agrees : (r.cluster.startNode n).Agrees fun _ => True := h.agrees.startNode (fun _ _ _ => trivial) n
  have shifted : ∀ connected, Shifts (.among (n :: r.begun) connected)
      ((Shift.views (r.cluster.net.connect n.text)).andThen (.news n (.join n n.text))) (r.cluster.net.connect n.text)
      r.cluster (r.cluster.startNode n) :=
    fun connected => .startNode (fun _ => Traffic.among_plain) Traffic.among_unserved (fun _ _ _ => trivial) h.agrees
      fun there => cast there connected
  generalize r.cluster.startNode n = c' at agrees shifted ⊢
  have shifted := shifted (Presence.connected ⟨c', n :: r.begun, r.late⟩)
  have connected : ∀ p, Presence.connected ⟨c', n :: r.begun, r.late⟩ p = (decide (p = n) || r.connected p) :=
    connected_start shifted.net
  refine h.shifts (q := ⟨c', n :: r.begun, r.late⟩) shifted agrees (fun _ => List.mem_cons_of_mem n) ?_ ?_ ?_
    fun x s shows => shows.start h new shifted.net
  · intro p hp gone
    have other : p ≠ n := fun e => new (e ▸ hp)
    rw [connected, decide_eq_false other, gone, Bool.or_false]
  · intro p hp
    rw [connected, Bool.or_eq_true, decide_eq_true_eq] at hp
    exact List.mem_cons.mpr (hp.imp_right (h.begun p))
  · intro x y hxy
    obtain ⟨hx, hy, gone⟩ := h.late x y hxy
    have other : y ≠ n := fun e => new (e ▸ hy)
    refine ⟨List.mem_cons_of_mem n hx, List.mem_cons_of_mem n hy, ?_⟩
    rw [connected, decide_eq_false other, gone, Bool.or_false]

theorem Sound.stop (h : r.Sound) (n : NodeId) : Sound ⟨r.cluster.stopNode n, r.begun, r.late⟩ := by
  have agrees : (r.cluster.stopNode n).Agrees fun _ => True := h.agrees.stopNode (fun _ _ _ => trivial) n
  cases hn : r.cluster.host? n with
  | none =>
    rw [Shifts.stopNode_absent hn]
    exact h
  | some host =>
    have fits := h.fits n host hn
    -- who knows nobody has nobody to tell, so that it does not matter whether the node has been started
    have sent : host.book.peerAddresses = [] ∨ ∀ target, r.cluster.net.connected.contains target →
        Reads ((Traffic.among r.begun fun p => !decide (p = n) && r.connected p).sent target)
          (Request.encode .string (.leave n)).1 (Request.encode .string (.leave n)).2 := by
      by_cases begun : n ∈ r.begun
      · refine .inr fun target there q hq => ?_
        rw [Request.decode_leave fits] at hq
        cases hq
        exact ⟨begun, by simp, h.begun ⟨target⟩ there⟩
      · exact .inl (AddressBook.peerAddresses_of_unknown ((h.books n host hn).blank begun))
    have shifted := Shifts.stopNode (fun _ => Traffic.among_plain) Traffic.among_unserved (fun _ _ _ => trivial)
      h.agrees hn sent
    have connected : ∀ p, Presence.connected ⟨r.cluster.stopNode n, r.begun, r.late⟩ p =
        (!decide (p = n) && r.connected p) := connected_stop shifted.net
    rw [← funext connected] at shifted
    refine h.shifts (q := ⟨r.cluster.stopNode n, r.begun, r.late⟩) shifted agrees (fun _ hp => hp) ?_ ?_ ?_ ?_
    · intro p _ gone
      rw [connected, gone, Bool.and_false]
    · intro p hp
      rw [connected, Bool.and_eq_true] at hp
      exact h.begun p hp.2
    · intro x y hxy
      obtain ⟨hx, hy, gone⟩ := h.late x y hxy
      exact ⟨hx, hy, by rw [connected, gone, Bool.and_false]⟩
    · intro x s shows
      have wired := shifted.net
      by_cases listed : r.cluster.net.connected.contains n.text
      · rw [if_pos listed] at wired ⊢
        exact shows.disconnect h wired connected
      · rw [if_neg listed] at wired ⊢
        exact shows.forget (Bool.eq_false_iff.mpr listed) wired

/-- Some task goes on. If it is a message that somebody comes or goes, its target is told; nobody is told otherwise. -/
theorem Sound.go (h : r.Sound) (t : Ticket) : (r.take (.deed (.go t) rfl)).Sound := by
  show Sound ⟨r.cluster.poll t, r.begun, r.overdue (.deed (.go t) rfl)⟩
  have agrees : (r.cluster.poll t).Agrees fun _ => True := h.agrees.poll (fun _ _ _ => trivial) t
  unfold overdue
  dsimp only
  cases ht : r.cluster.tasks.get? t with
  | none =>
    have idle : r.cluster.poll t = r.cluster := by rw [poll, ht]
    have nothing : r.cluster.given? t = none := by rw [given?, ht, Option.bind_none]
    rw [idle, nothing]
    exact h
  | some task =>
    have carries := h.traffic t task ht
    have goes : r.cluster.poll t = r.cluster.resume t task := by rw [poll, ht]
    rw [goes] at agrees ⊢
    -- what cannot be read, and what is no join or leave, leaves the books as they are
    by_cases unread : ∀ target op body, task.handed? r.cluster.now = some (target, op, body) →
        ∃ e, Request.decode .string op body = .error e
    · rw [given?_of_unread ht unread]
      refine h.resume t carries ?_
      intro target op body handed q hq
      obtain ⟨e, hd⟩ := unread target op body handed
      rw [hd] at hq
      cases hq
    · push Not at unread
      obtain ⟨target, op, body, handed, read⟩ := unread
      obtain ⟨q, hd⟩ : ∃ q, Request.decode .string op body = .ok q := by
        cases hd : Request.decode .string op body with
        | error e => exact absurd hd (read e)
        | ok q => exact ⟨q, rfl⟩
      have sent := carries.sent handed q hd
      have plainly : q.isMembership = false → Sound ⟨r.cluster.resume t task, r.begun, r.late⟩ := by
        intro plain
        refine h.resume t carries ?_
        intro target' op' body' handed' q' hq' member
        rw [handed] at handed'
        cases handed'
        rw [hd] at hq'
        cases hq'
        rw [plain] at member
        cases member
      rw [given?_of_handed ht handed hd]
      cases q with
      | join y a =>
        have told : r.cluster.resume t task = (r.cluster.addMember ⟨target⟩ y a).finish t none :=
          (resume_handed handed).trans (deliver_join hd)
        rw [told] at agrees ⊢
        exact h.join sent.2 sent.1 ((Shifts.informed (h.agrees.addMember ⟨target⟩ y a)).finish t none) agrees
      | leave y =>
        have told : r.cluster.resume t task = (r.cluster.removeMember ⟨target⟩ y).finish t none :=
          (resume_handed handed).trans (deliver_leave hd)
        rw [told] at agrees ⊢
        exact h.leave sent.2.1 ((Shifts.informed (h.agrees.removeMember ⟨target⟩ y)).finish t none) agrees
      | _ => exact plainly rfl

theorem Sound.rewire (h : r.Sound) (net : Loopback) (wired : net.connected = r.cluster.net.connected) :
    Sound ⟨{ r.cluster with net := net }, r.begun, r.late⟩ :=
  h.still (.of_net rfl rfl rfl) wired (h.agrees.of_hosts rfl)

theorem Sound.summon (h : r.Sound) (w : Wish) :
    Sound ⟨r.cluster.summon (w.task r.cluster.now), r.begun, r.late⟩ := by
  have called : Sound ⟨{ r.cluster with fresh := r.cluster.fresh + 1, front := some r.cluster.fresh, called := false },
      r.begun, r.late⟩ := h.still (.of_net rfl rfl rfl) rfl (h.agrees.of_hosts rfl)
  refine called.resume r.cluster.fresh (carries_wish w _) ?_
  intro target op body handed
  cases w <;> cases handed

theorem Sound.take (h : r.Sound) {i : Incident} (new : ∀ n, i.starts? = some n → n ∉ r.begun) : (r.take i).Sound := by
  cases i with
  | delay name millis => exact h.rewire (r.cluster.net.setDelay name millis) rfl
  | isolate name => exact h.rewire (r.cluster.net.isolate name) rfl
  | heal name => exact h.rewire (r.cluster.net.heal name) rfl
  | deed d own =>
    have inner : d.isInner := by
      cases d <;> first | exact own | rfl
    have agrees : (r.cluster.does d).Agrees fun _ => True :=
      h.agrees.undergo (fun _ _ _ => trivial) (.deed d inner) fun _ _ _ _ => trivial
    by_cases small : d.isSmall
    · have steps : Strides (.among r.begun r.connected) ⟨""⟩ (r.cluster, 0) (r.cluster.does d, _) :=
        strides_does (fun _ => Traffic.among_plain) inner small
      have stays := h.still (.strides Traffic.among_unserved steps) rfl agrees
      cases d with
      | later w => exact stays
      | clock now timers => exact stays
      | queue ready front called => exact stays
      | move n x other => exact stays
      | release count => exact stays
      | _ => cases small
    · cases d with
      | begin w => exact h.summon w
      | go t => exact h.go t
      | start n => exact h.start (new n rfl)
      | stop n => exact h.stop n
      | network net => cases own
      | executor n e =>
        have kept : Shifts (.among r.begun r.connected) .still r.cluster.net r.cluster
            (r.cluster.does (.executor n e)) := .alter n fun _ => rfl
        exact h.still kept rfl agrees
      | timeout n limit =>
        have kept : Shifts (.among r.begun r.connected) .still r.cluster.net r.cluster
            (r.cluster.does (.timeout n limit)) := .alter n fun _ => rfl
        exact h.still kept rfl agrees
      | _ => exact absurd rfl small

theorem Sound.run (h : r.Sound) {course : List Incident} (once : (course.filterMap Incident.starts?).Nodup)
    (new : ∀ n ∈ course.filterMap Incident.starts?, n ∉ r.begun) : (r.run course).Sound := by
  induction course generalizing r with
  | nil => exact h
  | cons i course ih =>
    have first : ∀ n, i.starts? = some n → n ∉ r.begun := by
      intro n hi
      exact new n (List.mem_filterMap.mpr ⟨i, List.mem_cons_self, hi⟩)
    have rest : (course.filterMap Incident.starts?).Nodup := by
      cases hi : i.starts? with
      | none => rwa [List.filterMap_cons_none hi] at once
      | some n =>
        rw [List.filterMap_cons_some hi] at once
        exact (List.nodup_cons.mp once).2
    refine ih (h.take first) rest ?_
    intro n hn
    show n ∉ i.starts?.toList ++ r.begun
    rw [List.mem_append, not_or]
    constructor
    · intro again
      have hi : i.starts? = some n := Option.mem_toList.mp again
      rw [List.filterMap_cons_some hi] at once
      exact (List.nodup_cons.mp once).1 hn
    · obtain ⟨j, hj, hs⟩ := List.mem_filterMap.mp hn
      exact new n (List.mem_filterMap.mpr ⟨j, List.mem_cons_of_mem i hj, hs⟩)

theorem Sound.init {hosts : List (NodeId × Host)} (new : ∀ e ∈ hosts, e.2.New e.1 ∧ Fits e.1.text) :
    (Presence.start hosts).Sound where
  agrees n h hn := ⟨trivial, (new (n, h) (hosts_start hn)).1.agrees⟩
  fits n h hn := (new (n, h) (hosts_start hn)).2
  begun n hn := by cases hn
  late x y hxy := by cases hxy
  books x h hx := by
    have blank := (new (x, h) (hosts_start hx)).1.1
    refine ⟨fun _ p => ?_, nofun, nofun⟩
    rw [blank]
    rfl
  traffic v task hv := by cases hv

/-- Every connected host knows just the nodes that are connected and those that are late for it, and so does its
manager, whatever the order in which nodes start and stop, works are submitted, tasks go on and messages arrive. -/
theorem members_connected_or_late {hosts : List (NodeId × Host)} (new : ∀ e ∈ hosts, e.2.New e.1 ∧ Fits e.1.text)
    {course : List Incident} (once : (course.filterMap Incident.starts?).Nodup) {x : NodeId} {h : Host}
    (host : ((start hosts).run course).cluster.host? x = some h) (connected : ((start hosts).run course).connected x) :
    ∃ m, h.manager = some m ∧ m.members.members = h.book.members ∧ m.capacity.nodes = h.book.members ∧
      ∀ p, p ∈ h.book.members ↔
        ((start hosts).run course).connected p ∨ (x, p) ∈ ((start hosts).run course).late := by
  have sound : ((start hosts).run course).Sound := (Sound.init new).run once fun _ _ => List.not_mem_nil
  obtain ⟨_, m, attached, agree⟩ := sound.agrees x h host
  have known : ∀ p, h.book.addresses.contains p ↔
      ((start hosts).run course).connected p ∨ (x, p) ∈ ((start hosts).run course).late := by
    intro p
    rw [← AddressBook.isKnown_standing]
    exact (sound.books x h host).known connected p
  have members : m.members.members = h.book.members := by
    refine Table.keys_eq_of_contains_eq fun p => ?_
    have same : m.members.table.contains p = (decide (p = x) || h.book.addresses.contains p) := agree.members p
    rw [same]
    by_cases hp : p = x
    · rw [hp, (known x).mpr (.inl connected), Bool.or_true]
    · rw [decide_eq_false hp, Bool.false_or]
  refine ⟨m, attached, members, agree.sound.nodes_eq.trans members, fun p => ?_⟩
  rw [← known p]
  exact Table.mem_keys_iff

def vacantPair : List (NodeId × Host) :=
  [(⟨"a"⟩, vacant ⟨"a"⟩), (⟨"b"⟩, vacant ⟨"b"⟩)]

theorem vacantPair_new : ∀ e ∈ vacantPair, e.2.New e.1 ∧ Fits e.1.text := by
  intro e he
  simp only [vacantPair, List.mem_cons, List.not_mem_nil, or_false] at he
  rcases he with rfl | rfl
  · exact ⟨vacant_new ⟨"a"⟩, by decide⟩
  · exact ⟨vacant_new ⟨"b"⟩, by decide⟩

def goes (ts : List Ticket) : List Incident :=
  ts.map fun t => .deed (.go t) rfl

/-- The way to the second node is slow when the first one starts, and is fast again when it stops. So the second node
hears first that the first one leaves, and then that it joins. -/
def lateJoin : List Incident :=
  [.deed (.start ⟨"b"⟩) rfl, .delay "b" 100, .deed (.start ⟨"a"⟩) rfl] ++ goes [0, 1, 2, 3, 4] ++
  [.delay "b" 0, .deed (.stop ⟨"a"⟩) rfl] ++ goes [8, 5, 6, 7] ++ [.deed (.clock 100 []) rfl] ++ goes [0, 5, 6, 7]

theorem members_connected_or_late_overtaken :
    ∃ h m, ((start vacantPair).run lateJoin).cluster.host? ⟨"b"⟩ = some h ∧ h.manager = some m ∧
      m.members.members = h.book.members ∧ ∀ p, p ∈ h.book.members ↔ p = ⟨"b"⟩ ∨ p = ⟨"a"⟩ := by
  have connected : ((start vacantPair).run lateJoin).cluster.net.connected.keys = ["b"] := by decide +kernel
  have late : ((start vacantPair).run lateJoin).late = [(⟨"b"⟩, ⟨"a"⟩)] := by decide +kernel
  have there : (((start vacantPair).run lateJoin).cluster.host? ⟨"b"⟩).isSome := by decide +kernel
  obtain ⟨h, host⟩ := Option.isSome_iff_exists.mp there
  have alone : ∀ p : NodeId, ((start vacantPair).run lateJoin).connected p ↔ p = ⟨"b"⟩ := by
    rintro ⟨p⟩
    rw [Presence.connected, ← Table.mem_keys_iff, connected]
    simp
  have once : (lateJoin.filterMap Incident.starts?).Nodup := by decide +kernel
  obtain ⟨m, attached, members, _, known⟩ := members_connected_or_late vacantPair_new once host ((alone _).mpr rfl)
  refine ⟨h, m, host, attached, members, fun p => ?_⟩
  rw [known p, alone p, late]
  simp

/-- A node that has stopped may be known for ever: at the end of this run nothing is on its way, and the second node
still counts the first one among its members. -/
theorem gone_and_known :
    ¬ ∀ (hosts : List (NodeId × Host)) (course : List Incident) (x : NodeId) (h : Host),
      (∀ e ∈ hosts, e.2.New e.1 ∧ Fits e.1.text) → (course.filterMap Incident.starts?).Nodup →
      (course.filterMap Incident.stops?).Nodup → ((start hosts).run course).cluster.tasks.entries.length = 0 →
      ((start hosts).run course).cluster.host? x = some h → ((start hosts).run course).connected x →
      ∀ p, p ∈ h.book.members ↔ ((start hosts).run course).connected p := by
  intro agrees
  have known : (((start vacantPair).run lateJoin).cluster.host? ⟨"b"⟩).map (·.book.members) =
      some [⟨"a"⟩, ⟨"b"⟩] := by decide +kernel
  obtain ⟨h, host, members⟩ := Option.map_eq_some_iff.mp known
  have stays := agrees vacantPair lateJoin ⟨"b"⟩ h vacantPair_new (by decide +kernel) (by decide +kernel)
    (by decide +kernel) host (by decide +kernel) ⟨"a"⟩
  rw [members] at stays
  have gone : ((start vacantPair).run lateJoin).connected ⟨"a"⟩ = false := by decide +kernel
  rw [gone] at stays
  exact Bool.false_ne_true (stays.mp List.mem_cons_self)

end Presence

end Workshare
