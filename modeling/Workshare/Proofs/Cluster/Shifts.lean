import Workshare.Proofs.Cluster.Agreement

namespace Workshare.Cluster

/-- What becomes of the standing of each node at each host. -/
abbrev Shift :=
  NodeId → NodeId → Standing String → Standing String

namespace Shift

def still : Shift :=
  fun _ _ s => s

/-- News come to host `n` alone. -/
def news (n : NodeId) (x : Tiding String) : Shift :=
  fun y p s => if y = n then s.after p x else s

/-- Every connected host is given the list of all of them. -/
def views (net : Loopback) : Shift :=
  fun y p s => if net.connected.contains y.text then s.after p (.view net.view) else s

def clears (n : NodeId) : Shift :=
  fun y _ s => if y = n then .unknown else s

def andThen (f g : Shift) : Shift :=
  fun y p s => g y p (f y p s)

end Shift

/-- The list that connected nodes are given names just them. -/
theorem isSome_view (net : Loopback) (p : NodeId) :
    (lastAddress net.view p).isSome = net.connected.contains p.text := by
  rw [Bool.eq_iff_iff, isSome_lastAddress, ← Table.mem_keys_iff, Loopback.view, List.map_map, List.mem_map]
  constructor
  · rintro ⟨name, hn, rfl⟩
    exact hn
  · intro hp
    exact ⟨p.text, hp, rfl⟩

theorem Shift.isViewed_views {net : Loopback} {y : NodeId} (connected : net.connected.contains y.text) (p : NodeId)
    (s : Standing String) : (views net y p s).isViewed = net.connected.contains p.text := by
  rw [views, if_pos connected, Standing.isViewed_after_view, isSome_view]

theorem Shift.isKnown_views {net : Loopback} {y : NodeId} (connected : net.connected.contains y.text) (p : NodeId)
    (s : Standing String) :
    (views net y p s).isKnown = (net.connected.contains p.text || (s.isKnown && !s.isViewed)) := by
  rw [views, if_pos connected, Standing.isKnown_after_view, isSome_view]

/-- The books have shifted, the network is now `net`, and new tasks carry messages of the traffic. -/
structure Shifts (T : Traffic) (f : Shift) (net : Loopback) (c c' : Cluster) : Prop where
  net : c'.net = net
  books : ∀ y h', c'.host? y = some h' →
    ∃ h, c.host? y = some h ∧ ∀ p, h'.book.standing p = f y p (h.book.standing p)
  tasks : ∀ v task, c'.tasks.get? v = some task → task.Carries T ∨ c.tasks.get? v = some task

variable {T : Traffic} {f g : Shift} {net net' : Loopback} {Q : Executor → Prop} {n : NodeId} {c c' c'' : Cluster}
  {h h' : Host} {m : Manager}

namespace Shifts

theorem refl (c : Cluster) : Shifts T .still c.net c c :=
  ⟨rfl, fun _ h hy => ⟨h, hy, fun _ => rfl⟩, fun _ _ ht => .inr ht⟩

theorem trans (h : Shifts T f net c c') (h' : Shifts T g net' c' c'') : Shifts T (f.andThen g) net' c c'' := by
  refine ⟨h'.net, ?_, ?_⟩
  · intro y x hy
    obtain ⟨x', hy', later⟩ := h'.books y x hy
    obtain ⟨x'', hy'', sooner⟩ := h.books y x' hy'
    exact ⟨x'', hy'', fun p => by rw [later, sooner]; rfl⟩
  · intro v task ht
    rcases h'.tasks v task ht with carries | ht
    · exact .inl carries
    · exact h.tasks v task ht

theorem of_net (wired : c'.net = net) (hosts : c'.hosts = c.hosts) (tasks : c'.tasks = c.tasks) :
    Shifts T .still net c c' := by
  refine ⟨wired, ?_, ?_⟩
  · intro y x hy
    rw [host?, hosts] at hy
    exact ⟨x, hy, fun _ => rfl⟩
  · intro v task ht
    rw [tasks] at ht
    exact .inr ht

theorem of_insert (host : c.host? n = some h) (changed : c'.hosts = c.hosts.insert n h')
    (shifted : ∀ p, h'.book.standing p = f n p (h.book.standing p)) (others : ∀ y p s, y ≠ n → f y p s = s)
    (kept : c'.net = c.net)
    (tasks : ∀ v task, c'.tasks.get? v = some task → task.Carries T ∨ c.tasks.get? v = some task) :
    Shifts T f c.net c c' := by
  refine ⟨kept, ?_, tasks⟩
  intro y x hy
  rw [host?, changed, Table.get?_insert] at hy
  split at hy
  next e =>
    cases hy
    exact ⟨h, by rw [e]; exact host, by rw [e]; exact shifted⟩
  next hn => exact ⟨x, hy, fun p => (others y p _ hn).symm⟩

theorem spawn {task : Task} (carries : task.Carries T) : Shifts T .still c.net c (c.spawn task).1 := by
  refine ⟨rfl, fun _ h hy => ⟨h, hy, fun _ => rfl⟩, ?_⟩
  intro v other ht
  have ht : (c.tasks.insert c.fresh task).get? v = some other := ht
  rw [Table.get?_insert] at ht
  split at ht
  next => cases ht; exact .inl carries
  next => exact .inr ht

theorem inquire (c : Cluster) (n : NodeId) (peers : List NodeId) : Shifts T .still c.net c (c.inquire n peers) := by
  induction peers generalizing c with
  | nil => exact refl c
  | cons peer peers ih =>
    have asked : Shifts T .still c.net c (c.spawn (.refresh n peer)).1 := spawn trivial
    exact asked.trans (ih _)

theorem of_absent (absent : c.host? n = none) (others : ∀ y p s, y ≠ n → f y p s = s) : Shifts T f c.net c c := by
  refine ⟨rfl, ?_, fun _ _ ht => .inr ht⟩
  intro y x hy
  have apart : y ≠ n := by
    rintro rfl
    rw [absent] at hy
    cases hy
  exact ⟨x, hy, fun p => (others y p _ apart).symm⟩

/-- News come to a host, and its book takes them in. -/
theorem informed {x : Tiding String} (informed : c.Informed n x c') : Shifts T (.news n x) c.net c c' := by
  have others : ∀ y p s, y ≠ n → Shift.news n x y p s = s := fun y p s hy => if_neg hy
  cases informed with
  | absent hn => exact of_absent hn others
  | @told h m r hn hm agree learnt byView =>
    have asked : Shifts T .still c.net c (c.inquire n (if byView then r.2.flatMap (·.asked n) else [])) := inquire c n _
    refine of_insert hn rfl ?_ others asked.net asked.tasks
    intro p
    show r.1.standing p = if n = n then _ else _
    rw [if_pos rfl]
    exact (learnt.after agree.listed).standing p

/-- Every connected host has taken the list in; to take it in twice does no more. -/
theorem publishView (agrees : c.Agrees Q) : Shifts T (.views c.net) c.net c c.publishView := by
  have each : ∀ (names : List String) (c : Cluster), c.Agrees Q →
      Shifts T (fun y p s => if y.text ∈ names then s.after p (.view c.net.view) else s) c.net c
        (names.foldl (fun c name => c.onView ⟨name⟩ c.net.view) c) := by
    intro names
    induction names with
    | nil => intro c _; exact refl c
    | cons name names ih =>
      intro c agrees
      have first : Shifts T (.news ⟨name⟩ (.view c.net.view)) c.net c (c.onView ⟨name⟩ c.net.view) :=
        informed (agrees.onView ⟨name⟩ c.net.view)
      have rest := ih _ (agrees.informed (agrees.onView ⟨name⟩ c.net.view))
      rw [first.net] at rest
      have both := first.trans rest
      refine ⟨both.net, ?_, both.tasks⟩
      intro y x hy
      obtain ⟨x', hy', shifted⟩ := both.books y x hy
      refine ⟨x', hy', fun p => ?_⟩
      have same : y = ⟨name⟩ ↔ y.text = name := by
        cases y
        simp
      rw [shifted, Shift.andThen, Shift.news]
      by_cases here : y.text = name
      · simp [same, here, Standing.after_view_view]
      · simp [same, here]
  have all := each c.net.connected.keys c agrees
  refine ⟨all.net, ?_, all.tasks⟩
  intro y x hy
  obtain ⟨x', hy', shifted⟩ := all.books y x hy
  refine ⟨x', hy', fun p => ?_⟩
  rw [shifted, Shift.views]
  simp only [Table.mem_keys_iff]

theorem alter (n : NodeId) {change : Host → Host} (book : ∀ h, (change h).book = h.book) :
    Shifts T .still c.net c (c.alter n change) := by
  unfold Cluster.alter
  split
  next h hn => exact of_insert hn rfl (fun p => by rw [book]; rfl) (fun _ _ _ _ => rfl) rfl fun _ _ ht => .inr ht
  next => exact refl c

theorem stride {s s' : Cluster × Int} (unserved : ∀ p r, ¬ T.served p r) (step : Stride T n s s') :
    Shifts T .still s.1.net s.1 s'.1 := by
  cases step with
  | aside same => exact of_net same.net same.hosts same.tasks
  | record e => exact of_net rfl rfl rfl
  | spawn ht => exact spawn ht
  | lane pool' hh hx =>
    exact of_insert hh rfl (fun _ => rfl) (fun _ _ _ _ => rfl) rfl fun _ _ ht => .inr ht
  | manager hh hm stirs quiet =>
    exact of_insert hh rfl (fun _ => rfl) (fun _ _ _ _ => rfl) rfl fun _ _ ht => .inr ht
  | join hs => exact absurd hs (unserved _ _)
  | leave hs => exact absurd hs (unserved _ _)
  | unkept due' hk => exact refl _

theorem strides {s s' : Cluster × Int} (unserved : ∀ p r, ¬ T.served p r) (steps : Strides T n s s') :
    Shifts T .still s.1.net s.1 s'.1 := by
  induction steps with
  | refl => exact refl _
  | tail _ last ih =>
    have next := stride unserved last
    rw [ih.net] at next
    exact ih.trans next

theorem manage {α : Type} (plain : ∀ r, r.isMembership = false → T.cast r) (unserved : ∀ p r, ¬ T.served p r)
    (n : NodeId) (act : Manager → Manager × α) : Shifts T .still c.net c (c.manage n act).1 := by
  rcases c.manage_cases n act with ⟨_, e⟩ | ⟨h, m, hn, _, e⟩
  · rw [e]
    exact refl c
  · have acted : Shifts T .still c.net c (c.setHost n { h with manager := some (act m).1.drain.2 }) :=
      of_insert hn rfl (fun _ => rfl) (fun _ _ _ _ => rfl) rfl fun _ _ ht => .inr ht
    have steps : Strides T n (c.setHost n { h with manager := some (act m).1.drain.2 }, 0)
        ((act m).1.drain.1.foldl (perform n) (c.setHost n { h with manager := some (act m).1.drain.2 }), 0) :=
      strides_performAll plain n (act m).1.drain.1
    rw [e]
    exact acted.trans (strides unserved steps)

theorem finish (h : Shifts T f net c c') (t : Ticket) (said : Option Answer) : Shifts T f net c (c'.finish t said) := by
  refine ⟨h.net, h.books, ?_⟩
  intro v task hv
  have hv : (c'.tasks.erase t).get? v = some task := hv
  rw [Table.get?_erase] at hv
  split at hv
  next => cases hv
  next => exact h.tasks v task hv

/-- A go at a task in which nobody is told of a coming or a going. -/
theorem walks {s : Cluster × Int} (unserved : ∀ p r, ¬ T.served p r) {t : Ticket} (goes : Walks T n t s c') :
    Shifts T .still s.1.net s.1 c' := by
  rcases goes with ⟨c₁, left, steps, carries, rfl⟩ | ⟨c₁, said, steps, rfl⟩
  · have went := strides unserved steps
    refine ⟨went.net, went.books, ?_⟩
    intro v task hv
    have hv : (c₁.tasks.insert t left).get? v = some task := hv
    rw [Table.get?_insert] at hv
    split at hv
    next => cases hv; exact .inl carries
    next => exact went.tasks v task hv
  · exact (strides unserved steps).finish t said

variable (plain : ∀ r, r.isMembership = false → T.cast r) (unserved : ∀ p r, ¬ T.served p r)

theorem host (h : Shifts T f net c c') (n : NodeId) (there : (c'.host? n).isSome) : (c.host? n).isSome := by
  obtain ⟨x, hx⟩ := Option.isSome_iff_exists.mp there
  obtain ⟨y, hy, _⟩ := h.books n x hx
  rw [hy]
  rfl

theorem stopNode_absent (hn : c.host? n = none) : c.stopNode n = c := by
  have untold : ∀ act : Manager → Manager, c.tell n act = c := by
    intro act
    rw [tell, Cluster.manage, hn]
  rw [Cluster.stopNode, untold, disconnect, hn]
  exact untold _

include unserved

theorem broadcast (n : NodeId) {r : Request String}
    (cast : (c.host? n).isSome → Reads T.cast (r.encode .string).1 (r.encode .string).2) :
    Shifts T .still c.net c (c.broadcast n r) := by
  cases hn : c.host? n with
  | none =>
    have nobody : c.broadcast n r = c := by rw [Cluster.broadcast, hn]
    rw [nobody]
    exact refl c
  | some h =>
    have steps : Strides T n (c, 0) (c.broadcast n r, 0) := strides_broadcast n (cast (by rw [hn]; rfl))
    exact strides unserved steps

include plain

theorem depart (n : NodeId) : Shifts T (.clears n) c.net c (c.depart n) := by
  have cleared : Shifts T (.clears n) c.net c (c.withBook n fun b => (b.clear, [])).1 := by
    cases hn : c.host? n with
    | none =>
      have nobody : (c.withBook n fun b => (b.clear, [])).1 = c := by rw [withBook, hn]
      rw [nobody]
      exact of_absent hn fun y p s hy => if_neg hy
    | some h =>
      rw [withBook_eq hn]
      refine of_insert hn rfl ?_ (fun y p s hy => if_neg hy) rfl fun _ _ ht => .inr ht
      intro p
      exact (if_pos rfl).symm
  have told := manage plain unserved (c := (c.withBook n fun b => (b.clear, [])).1) n fun m => (m.disband, ())
  rw [cleared.net] at told
  exact cleared.trans told

variable (lanes : ∀ pool pool', Q (.pool pool) → Q (.pool pool')) (agrees : c.Agrees Q)

include lanes agrees

/-- Whoever starts is listed in a view at every connected host, and hears itself join. -/
theorem startNode {n : NodeId} (cast : (c.host? n).isSome →
      Reads T.cast (Request.encode .string (.join n n.text)).1 (Request.encode .string (.join n n.text)).2) :
    Shifts T ((Shift.views (c.net.connect n.text)).andThen (.news n (.join n n.text))) (c.net.connect n.text) c
      (c.startNode n) := by
  have told : Shifts T .still c.net c (c.tell n (·.connect.1)) := manage plain unserved n _
  have agrees : (c.tell n (·.connect.1)).Agrees Q :=
    agrees.tell lanes n fun m => Manager.Stirs.move m (x := .connect) rfl
  unfold Cluster.startNode
  revert told agrees
  generalize c.tell n (·.connect.1) = c₁
  intro told agrees
  have wired : Shifts T .still (c₁.net.connect n.text) c₁ { c₁ with net := c₁.net.connect n.text } :=
    of_net rfl rfl rfl
  have agrees : ({ c₁ with net := c₁.net.connect n.text } : Cluster).Agrees Q := agrees.of_hosts rfl
  have viewed := publishView (T := T) agrees
  have agrees : ({ c₁ with net := c₁.net.connect n.text } : Cluster).publishView.Agrees Q :=
    agrees.publishView lanes
  unfold Cluster.connect
  revert viewed agrees
  dsimp only
  generalize Cluster.publishView _ = c₂
  intro viewed agrees
  have joined := informed (T := T) (agrees.addMember n n n.text)
  rw [viewed.net, told.net] at joined
  rw [told.net] at wired viewed
  have listed := ((told.trans wired).trans viewed).trans joined
  have spread := broadcast unserved (c := c₂.addMember n n n.text) n fun there => cast (listed.host n there)
  rw [joined.net] at spread
  have announced := manage plain unserved (c := (c₂.addMember n n n.text).broadcast n (.join n n.text)) n
    fun m => (m.announceAll (((c₂.addMember n n n.text).broadcast n (.join n n.text)).free n), ())
  rw [spread.net] at announced
  exact (listed.trans spread).trans announced

/-- Whoever stops takes leave, is no longer listed, and forgets everybody. -/
theorem stopNode {n : NodeId} (host : c.host? n = some h)
    (sent : h.book.peerAddresses = [] ∨ ∀ target, c.net.connected.contains target →
      Reads (T.sent target) (Request.encode .string (.leave n)).1 (Request.encode .string (.leave n)).2) :
    Shifts T ((if c.net.connected.contains n.text then Shift.views (c.net.disconnect n.text) else .still).andThen
      (.clears n)) (if c.net.connected.contains n.text then c.net.disconnect n.text else c.net) c (c.stopNode n) := by
  have told : Shifts T .still c.net c (c.tell n (·.disconnect)) := manage plain unserved n _
  have agreed : (c.tell n (·.disconnect)).Agrees Q :=
    agrees.tell lanes n fun m => Manager.Stirs.move m (x := .disconnect) rfl
  have there : ∃ h', (c.tell n (·.disconnect)).host? n = some h' ∧ h'.book = h.book := by
    obtain ⟨_, m, hm, _⟩ := agrees n h host
    have hosts : (c.tell n (·.disconnect)).hosts = c.hosts.insert n { h with manager := some m.disconnect.drain.2 } :=
      hosts_manage host hm _
    refine ⟨{ h with manager := some m.disconnect.drain.2 }, ?_, rfl⟩
    rw [host?, hosts, Table.get?_insert, if_pos rfl]
  unfold Cluster.stopNode
  revert told agreed there
  generalize c.tell n (·.disconnect) = c₁
  rintro told agreed ⟨h', there, book⟩
  rw [disconnect, there]
  dsimp only
  rw [book]
  have posted : ∃ c₂, c₁.post n h.book.peerAddresses (Request.encode .string (.leave n)).1
      (Request.encode .string (.leave n)).2 = c₂ ∧ Shifts T .still c.net c c₂ ∧ c₂.Agrees Q := by
    -- with an empty book nobody is told
    rcases sent with nobody | sent
    · exact ⟨c₁, by rw [nobody]; rfl, told, agreed⟩
    · have steps : Strides T n (c₁, 0) (c₁.post n h.book.peerAddresses (Request.encode .string (.leave n)).1
          (Request.encode .string (.leave n)).2, 0) := strides_post n _ (by rw [told.net]; exact sent)
      have spread := strides unserved steps
      rw [told.net] at spread
      exact ⟨_, rfl, told.trans spread, Agrees.strides lanes steps agreed⟩
  obtain ⟨c₂, posted, spread, agreed⟩ := posted
  rw [posted, spread.net]
  by_cases listed : c.net.connected.contains n.text
  · rw [if_pos listed, if_pos listed, if_pos listed]
    have cut : Shifts T .still (c.net.disconnect n.text) c₂ { c₂ with net := c.net.disconnect n.text } :=
      of_net rfl rfl rfl
    have cutAgrees : ({ c₂ with net := c.net.disconnect n.text } : Cluster).Agrees Q := agreed.of_hosts rfl
    have viewed := publishView (T := T) cutAgrees
    have gone := depart plain unserved (c := ({ c₂ with net := c.net.disconnect n.text } : Cluster).publishView) n
    rw [viewed.net] at gone
    exact ((spread.trans cut).trans viewed).trans gone
  · rw [if_neg listed, if_neg listed, if_neg listed]
    have gone := depart plain unserved (c := c₂) n
    rw [spread.net] at gone
    exact spread.trans gone

end Shifts

end Workshare.Cluster
