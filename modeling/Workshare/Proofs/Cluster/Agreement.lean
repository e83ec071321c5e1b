import Workshare.Proofs.Cluster.Motions
import Workshare.Proofs.Cluster.Tidings
import Workshare.Proofs.Manager.History

namespace Workshare

def MembershipChange.isJoined : MembershipChange → Bool
  | .joined _ => true
  | .left _ => false

namespace Manager

theorem attend_cons (m : Manager) (change : MembershipChange) (changes : List MembershipChange) :
    m.attend (change :: changes) = (m.hear change.notice).drain.2.attend changes :=
  rfl

@[simp] theorem attend_id (m : Manager) (changes : List MembershipChange) : (m.attend changes).id = m.id := by
  induction changes generalizing m with
  | nil => rfl
  | cons change changes ih => exact (ih _).trans (hear_id m _)

theorem Sound.attend {m : Manager} (h : Sound m) (changes : List MembershipChange) : Sound (m.attend changes) := by
  induction changes generalizing m with
  | nil => exact h
  | cons change changes ih =>
    have drained : Sound (m.hear change.notice).drain.2 := (h.hear change.notice).of_eq rfl rfl rfl rfl rfl rfl
    exact ih drained

/-- The last change that is reported of a peer decides whether it is a member. -/
theorem attend_members (m : Manager) {p : NodeId} (hp : p ≠ m.id) (changes : List MembershipChange) :
    (m.attend changes).members.contains p =
      (AddressBook.about p changes).foldl (fun _ change => change.isJoined) (m.members.contains p) := by
  induction changes generalizing m with
  | nil => rfl
  | cons change changes ih =>
    have same : (m.hear change.notice).drain.2.id = m.id := hear_id m _
    rw [attend_cons, ih _ (by rw [same]; exact hp)]
    cases change with
    | joined q =>
      have joined : (m.hear (MembershipChange.joined q).notice).drain.2.members.contains p =
          (decide (p = q) || m.members.contains p) := by
        show (m.join q).members.contains p = _
        unfold join
        rw [tell_members, Roster.contains_insert]
      rw [joined]
      by_cases hq : q = p
      · simp [AddressBook.about, MembershipChange.node, MembershipChange.isJoined, hq]
      · simp [AddressBook.about, MembershipChange.node, hq, Ne.symm hq]
    | left q =>
      have left : (m.hear (MembershipChange.left q).notice).drain.2.members.contains p =
          (m.members.contains p && !(decide (p = q) && decide (q ≠ m.id))) := leave_members m q p
      rw [left]
      by_cases hq : q = p
      · have hi : q ≠ m.id := by rw [hq]; exact hp
        simp [AddressBook.about, MembershipChange.node, MembershipChange.isJoined, hq, hp]
      · simp [AddressBook.about, MembershipChange.node, hq, Ne.symm hq]

end Manager

structure Agree (n : NodeId) (m : Manager) (b : AddressBook String) : Prop where
  id : m.id = n
  quiet : m.outbox = []
  sound : m.Sound
  listed : b.Listed
  members : ∀ p, m.members.contains p = (decide (p = n) || b.addresses.contains p)

namespace Agree

variable {n : NodeId} {m m' : Manager} {b : AddressBook String}

/-- News keep the agreement, since the manager hears of every change. -/
theorem learns (h : Agree n m b) {x : Tiding String} {r : AddressBook String × List MembershipChange}
    (learnt : b.Learns x r) : Agree n (m.attend r.2) r.1 := by
  have follows := learnt.after h.listed
  have sound := h.sound.attend r.2
  refine ⟨(Manager.attend_id m r.2).trans h.id, Manager.attend_outbox h.quiet r.2, sound, follows.listed, ?_⟩
  intro p
  by_cases hp : p = n
  · have self := sound.member
    rw [Manager.attend_id, h.id] at self
    simp [hp, self]
  · have before := h.members p
    have known := follows.standing p
    rw [← AddressBook.isKnown_standing, known]
    rw [Manager.attend_members m (by rw [h.id]; exact hp), follows.told p]
    rw [decide_eq_false hp, Bool.false_or, ← AddressBook.isKnown_standing] at before
    rw [decide_eq_false hp, Bool.false_or, before]
    generalize b.standing p = s
    unfold Standing.change?
    cases hs : s.isKnown <;> cases hs' : (s.after p x).isKnown <;> simp [MembershipChange.isJoined]

theorem stirs (h : Agree n m b) {weight : Int} (stirs : m.Stirs m' weight) (quiet : m'.outbox = []) : Agree n m' b :=
  ⟨stirs.id.trans h.id, quiet, stirs.sound h.sound, h.listed, fun p => by rw [stirs.members]; exact h.members p⟩

theorem mem_members (h : Agree n m b) (p : NodeId) : p ∈ m.members.members ↔ p = n ∨ p ∈ b.members := by
  rw [Roster.mem_members, h.members p, Bool.or_eq_true, decide_eq_true_eq]
  exact or_congr_right Table.mem_keys_iff.symm

theorem disband (h : Agree n m b) : Agree n m.disband.drain.2 b.clear := by
  have drained : Manager.Sound m.disband.drain.2 := h.sound.disband.of_eq rfl rfl rfl rfl rfl rfl
  refine ⟨(Manager.disband_id m).trans h.id, rfl, drained, AddressBook.listed_start b.self, ?_⟩
  intro p
  have alone : m.disband.members.contains p = decide (p = m.id) := Manager.disband_members h.sound p
  rw [h.id] at alone
  show m.disband.members.contains p = (decide (p = n) || false)
  rw [alone, Bool.or_false]

end Agree

def Host.Agrees (n : NodeId) (h : Host) : Prop :=
  ∃ m, h.manager = some m ∧ Agree n m h.book

namespace Cluster

/-- News have come to host `n`, if it is there. -/
inductive Informed (n : NodeId) (x : Tiding String) (c : Cluster) : Cluster → Prop
  | absent : c.host? n = none → Informed n x c c
  | told {h : Host} {m : Manager} {r : AddressBook String × List MembershipChange} : c.host? n = some h →
      h.manager = some m → Agree n m h.book → h.book.Learns x r → (byView : Bool) →
      Informed n x c (c.learnt n h m byView r)

/-- Every host agrees, and `Q` holds of its executor. -/
def Agrees (Q : Executor → Prop) (c : Cluster) : Prop :=
  ∀ n h, c.host? n = some h → Q h.executor ∧ h.Agrees n

variable {Q : Executor → Prop} {c c' : Cluster} {n : NodeId} {h h' : Host} {m : Manager}

theorem hosts_manage {α : Type} (host : c.host? n = some h) (attached : h.manager = some m)
    (act : Manager → Manager × α) :
    (c.manage n act).1.hosts = c.hosts.insert n { h with manager := some (act m).1.drain.2 } := by
  rw [manage_some host attached]
  exact hosts_performAll n _ _

namespace Agrees

theorem of_hosts (h : c.Agrees Q) (same : c'.hosts = c.hosts) : c'.Agrees Q := by
  intro n host hn
  rw [host?, same] at hn
  exact h n host hn

theorem of_insert (h : c.Agrees Q) (changed : c'.hosts = c.hosts.insert n h') (executor : Q h'.executor)
    (agrees : h'.Agrees n) : c'.Agrees Q := by
  intro p x hp
  rw [host?, changed, Table.get?_insert] at hp
  split at hp
  next e => cases hp; rw [e]; exact ⟨executor, agrees⟩
  next => exact h p x hp

theorem of_host (h : c.Agrees Q) (n : NodeId) (absent : c.host? n = none → c' = c)
    (there : ∀ host m, c.host? n = some host → host.manager = some m → Q host.executor → Agree n m host.book →
      c'.Agrees Q) : c'.Agrees Q := by
  cases hn : c.host? n with
  | none => rw [absent hn]; exact h
  | some host =>
    obtain ⟨executor, m, hm, agree⟩ := h n host hn
    exact there host m hn hm executor agree

theorem informed (h : c.Agrees Q) {x : Tiding String} (informed : c.Informed n x c') : c'.Agrees Q := by
  cases informed with
  | absent _ => exact h
  | told hn hm agree learnt byView =>
    obtain ⟨executor, _⟩ := h n _ hn
    exact of_insert h rfl executor ⟨_, rfl, agree.learns learnt⟩

theorem addMember (h : c.Agrees Q) (n p : NodeId) (a : String) : c.Informed n (.join p a) (c.addMember n p a) := by
  cases hn : c.host? n with
  | none =>
    have nobody : c.addMember n p a = c := by
      rw [Cluster.addMember, withBook, hn]
      rfl
    rw [nobody]
    exact .absent hn
  | some host =>
    obtain ⟨_, m, hm, agree⟩ := h n host hn
    rw [addMember_effect hn hm agree.quiet]
    exact .told hn hm agree (.join p a) false

theorem removeMember (h : c.Agrees Q) (n p : NodeId) : c.Informed n (.leave p) (c.removeMember n p) := by
  cases hn : c.host? n with
  | none =>
    have nobody : c.removeMember n p = c := by
      rw [Cluster.removeMember, withBook, hn]
      rfl
    rw [nobody]
    exact .absent hn
  | some host =>
    obtain ⟨_, m, hm, agree⟩ := h n host hn
    rw [removeMember_effect hn hm agree.quiet]
    exact .told hn hm agree (.leave p) false

theorem onView (h : c.Agrees Q) (n : NodeId) (members : List (NodeId × String)) :
    c.Informed n (.view members) (c.onView n members) := by
  cases hn : c.host? n with
  | none =>
    have nobody : c.onView n members = c := by
      rw [Cluster.onView, withBook, hn]
      rfl
    rw [nobody]
    exact .absent hn
  | some host =>
    obtain ⟨_, m, hm, agree⟩ := h n host hn
    rw [onView_effect hn hm agree.quiet]
    exact .told hn hm agree (AddressBook.learns_onView host.book members) true

/-- Between the two halves of a departure the book is empty and the manager has not heard of it yet. -/
theorem depart (h : c.Agrees Q) (n : NodeId) : (c.depart n).Agrees Q := by
  refine h.of_host n ?_ ?_
  · intro hn
    rw [Cluster.depart, withBook, hn]
    unfold tell manage
    rw [hn]
  · intro host m hn hm executor agree
    have cleared : (c.withBook n fun b => (b.clear, [])).1 = c.setHost n { host with book := host.book.clear } := by
      rw [withBook_eq hn]
    have there : (c.setHost n { host with book := host.book.clear }).host? n =
        some { host with book := host.book.clear } := (Table.get?_insert _ _ _ _).trans (if_pos rfl)
    have hosts := hosts_manage there hm fun m => (m.disband, ())
    rw [setHost, Table.insert_insert] at hosts
    rw [Cluster.depart, cleared]
    exact h.of_insert hosts executor ⟨_, rfl, agree.disband⟩

theorem alter (h : c.Agrees Q) (n : NodeId) {f : Host → Host} (manager : ∀ h, (f h).manager = h.manager)
    (book : ∀ h, (f h).book = h.book) (kept : ∀ h, Q h.executor → Q (f h).executor) : (c.alter n f).Agrees Q := by
  refine h.of_host n ?_ ?_
  · intro hn
    rw [Cluster.alter, hn]
  · intro host m hn hm executor agree
    rw [Cluster.alter, hn]
    refine of_insert h rfl (kept host executor) ⟨m, (manager host).trans hm, ?_⟩
    rw [book]
    exact agree

variable (lanes : ∀ pool pool', Q (.pool pool) → Q (.pool pool'))

include lanes

theorem stride {T : Traffic} {p : NodeId} {s s' : Cluster × Int} (step : Stride T p s s') (h : s.1.Agrees Q) :
    s'.1.Agrees Q := by
  cases step with
  | aside same => exact h.of_hosts same.hosts
  | record e => exact h.of_hosts rfl
  | spawn ht => exact h.of_hosts rfl
  | lane pool' hh hx =>
    obtain ⟨executor, m, hm, agree⟩ := h _ _ hh
    rw [hx] at executor
    exact of_insert h rfl (lanes _ pool' executor) ⟨m, hm, agree⟩
  | manager hh hm stirs quiet =>
    obtain ⟨executor, m, hm', agree⟩ := h _ _ hh
    rw [hm] at hm'
    cases hm'
    exact of_insert h rfl executor ⟨_, rfl, agree.stirs stirs quiet⟩
  | join _ => exact h.informed (h.addMember _ _ _)
  | leave _ => exact h.informed (h.removeMember _ _)
  | unkept _ _ => exact h

theorem strides {T : Traffic} {p : NodeId} {s s' : Cluster × Int} (steps : Strides T p s s') (h : s.1.Agrees Q) :
    s'.1.Agrees Q := by
  induction steps with
  | refl => exact h
  | tail _ last ih => exact stride lanes last ih

theorem motions {p : NodeId} {s s' : Cluster × Int} (steps : Motions Q p s s') (h : s.1.Agrees Q) : s'.1.Agrees Q := by
  induction steps with
  | refl => exact h
  | tail _ last ih =>
    cases last with
    | stride step => exact stride lanes step ih
    | network net => exact ih.of_hosts rfl
    | view p members => exact ih.informed (ih.onView p members)
    | depart p => exact ih.depart p
    | alter manager book kept => exact ih.alter _ manager book kept

theorem tell (h : c.Agrees Q) (n : NodeId) {act : Manager → Manager} (stirs : ∀ m : Manager, m.Stirs (act m) 0) :
    (c.tell n act).Agrees Q := by
  have steps : Motions Q n (c, 0) (c.tell n act, 0) := .tell n stirs
  exact motions lanes steps h

theorem publishView (h : c.Agrees Q) : c.publishView.Agrees Q := by
  have steps : Motions Q ⟨""⟩ (c, 0) (c.publishView, 0) := .of_drifts .publishView
  exact motions lanes steps h

theorem startNode (h : c.Agrees Q) (n : NodeId) : (c.startNode n).Agrees Q := by
  have steps : Motions Q n (c, 0) (c.startNode n, 0) := .of_drifts (.startNode n)
  generalize c.startNode n = c' at steps ⊢
  exact motions lanes steps h

theorem stopNode (h : c.Agrees Q) (n : NodeId) : (c.stopNode n).Agrees Q := by
  have steps : Motions Q n (c, 0) (c.stopNode n, 0) := .of_drifts (.stopNode n)
  generalize c.stopNode n = c' at steps ⊢
  exact motions lanes steps h

/-- Whatever a task does and whatever it is told, the hosts agree afterwards. -/
theorem resume (h : c.Agrees Q) (t : Ticket) (task : Task) : (c.resume t task).Agrees Q := by
  rcases walks_any c ⟨""⟩ t task with ⟨c₁, left, steps, _, he⟩ | ⟨c₁, said, steps, he⟩
  · have agrees : c₁.Agrees Q := strides lanes steps h
    rw [he]
    exact agrees.of_hosts rfl
  · have agrees : c₁.Agrees Q := strides lanes steps h
    rw [he]
    exact agrees.of_hosts rfl

theorem summon (h : c.Agrees Q) (task : Task) : (c.summon task).Agrees Q := by
  have called : ({ c with fresh := c.fresh + 1, front := some c.fresh, called := false } : Cluster).Agrees Q :=
    h.of_hosts rfl
  exact called.resume lanes c.fresh task

theorem poll (h : c.Agrees Q) (t : Ticket) : (c.poll t).Agrees Q := by
  unfold Cluster.poll
  split
  next => exact h.resume lanes t _
  next => exact h

theorem undergo (h : c.Agrees Q) (x : Occurrence) (executors : ∀ p e inner, x = .deed (.executor p e) inner → Q e) :
    (c.undergo x).Agrees Q := by
  cases x with
  | deed d inner =>
    by_cases free : ∃ w, d = .begin w
    · obtain ⟨w, rfl⟩ := free
      exact h.summon lanes (w.task c.now)
    by_cases idle : ∃ t, d = .go t
    · obtain ⟨t, rfl⟩ := idle
      exact h.poll lanes t
    have steps : Motions Q ⟨""⟩ (c, 0) (c.does d, _) := motions_does inner (fun w e => free ⟨w, e⟩)
      (fun t e => idle ⟨t, e⟩) fun p e hd => executors p e (hd ▸ inner) (by subst hd; rfl)
    exact motions lanes steps h
  | message n op body => exact h.summon lanes (.serve n op body)
  | view n members => exact h.informed (h.onView n members)

theorem course (h : c.Agrees Q) (xs : List Occurrence)
    (executors : ∀ x ∈ xs, ∀ p e inner, x = .deed (.executor p e) inner → Q e) :
    (xs.foldl Cluster.undergo c).Agrees Q := by
  induction xs generalizing c with
  | nil => exact h
  | cons x xs ih =>
    refine ih (h.undergo lanes x (executors x List.mem_cons_self)) ?_
    exact fun y hy => executors y (List.mem_cons_of_mem x hy)

end Agrees

theorem hosts_start {hosts : List (NodeId × Host)} {n : NodeId} {h : Host} (hn : (start hosts).host? n = some h) :
    (n, h) ∈ hosts :=
  AddressBook.get?_ofList hn

end Cluster

/-- A host that has been set up and not been started: nobody is in its book, and its manager has heard of nobody. -/
def Host.New (n : NodeId) (h : Host) : Prop :=
  h.book = .start n ∧ ∃ settings free moves, (∀ x ∈ moves, Move.isInner x) ∧
    h.manager = some ((Manager.start n settings free).run moves).drain.2

theorem Manager.members_run (m : Manager) {moves : List Move} (inner : ∀ x ∈ moves, x.isInner) :
    (m.run moves).members = m.members := by
  induction moves generalizing m with
  | nil => rfl
  | cons x moves ih =>
    have rest := ih (m.move x) fun y hy => inner y (List.mem_cons_of_mem x hy)
    exact rest.trans (members_move m (inner x List.mem_cons_self))

theorem Host.New.agrees {n : NodeId} {h : Host} (new : h.New n) : h.Agrees n := by
  obtain ⟨book, settings, free, moves, inner, attached⟩ := new
  have sound : Manager.Sound ((Manager.start n settings free).run moves).drain.2 :=
    ((Manager.Sound.start n settings free).run moves).of_eq rfl rfl rfl rfl rfl rfl
  refine ⟨_, attached, (Manager.run_id _ moves), rfl, sound, ?_, ?_⟩
  · rw [book]
    exact AddressBook.listed_start n
  · intro p
    have alone : ((Manager.start n settings free).run moves).drain.2.members = Roster.empty.insert n :=
      Manager.members_run _ inner
    rw [alone, book, Roster.contains_insert]
    rfl

namespace Cluster

/-- The transport and the manager of every host know the same members, whatever happens and in whatever order: starts
and stops, tasks going on, messages of any content, also late ones, views of any content. Whoever was in the last view
has an address. -/
theorem members_agree {hosts : List (NodeId × Host)} (new : ∀ e ∈ hosts, e.2.New e.1) (course : List Occurrence)
    {n : NodeId} {h : Host} (host : (course.foldl undergo (start hosts)).host? n = some h) :
    ∃ m, h.manager = some m ∧ (∀ p, p ∈ m.members.members ↔ p = n ∨ p ∈ h.book.members) ∧
      m.capacity.nodes = m.members.members ∧ ∀ p ∈ h.book.viewed.members, p ∈ h.book.members := by
  have started : (start hosts).Agrees fun _ => True :=
    fun n h hn => ⟨trivial, (new (n, h) (hosts_start hn)).agrees⟩
  have agrees := started.course (fun _ _ _ => trivial) course fun _ _ _ _ _ _ => trivial
  obtain ⟨_, m, attached, agree⟩ := agrees n h host
  refine ⟨m, attached, agree.mem_members, agree.sound.nodes_eq, ?_⟩
  intro p hp
  exact Table.mem_keys_iff.mpr (agree.listed p (Roster.mem_members.mp hp))

def vacant (n : NodeId) : Host where
  executor := .pool ⟨.ofSize 2, .ofSize 2, ⟨1000000⟩, .empty⟩
  manager := some ((Manager.start n .default ⟨2, 2⟩).run [.transport ⟨"network", 0⟩ false]).drain.2
  book := .start n
  timeout := ⟨5000000⟩

theorem vacant_new (n : NodeId) : (vacant n).New n := by
  refine ⟨rfl, .default, ⟨2, 2⟩, [.transport ⟨"network", 0⟩ false], ?_, rfl⟩
  intro x hx
  rw [List.mem_singleton.mp hx]
  rfl

def starting (n : NodeId) : Occurrence :=
  .deed (.start n) rfl

/-- Tasks go on one after the other. -/
def inTurn (ts : List Ticket) : List Occurrence :=
  ts.map fun t => .deed (.go t) rfl

def arrival (n : NodeId) (r : Request String) : Occurrence :=
  .message n (r.encode .string).1 (r.encode .string).2

/-- A node that hears of others in every way, of itself too, and stops; then one more message is late. -/
def lateMessage : List Occurrence :=
  [starting ⟨"a"⟩, arrival ⟨"a"⟩ (.join ⟨"b"⟩ "b"), .view ⟨"a"⟩ [(⟨"c"⟩, "c")], arrival ⟨"a"⟩ (.leave ⟨"a"⟩),
    .deed (.stop ⟨"a"⟩) rfl, arrival ⟨"a"⟩ (.join ⟨"d"⟩ "d")]

theorem members_agree_late :
    ∃ h m, (lateMessage.foldl undergo (start [(⟨"a"⟩, vacant ⟨"a"⟩)])).host? ⟨"a"⟩ = some h ∧ h.manager = some m ∧
      h.book.members = [⟨"d"⟩] ∧ ∀ p, p ∈ m.members.members ↔ p = ⟨"a"⟩ ∨ p = ⟨"d"⟩ := by
  have new : ∀ e ∈ [((⟨"a"⟩ : NodeId), vacant ⟨"a"⟩)], e.2.New e.1 := by
    intro e he
    rw [List.mem_singleton.mp he]
    exact vacant_new ⟨"a"⟩
  have met : ((lateMessage.foldl undergo (start [(⟨"a"⟩, vacant ⟨"a"⟩)])).host? ⟨"a"⟩).map (·.book.members) =
      some [⟨"d"⟩] := by decide +kernel
  obtain ⟨h, host, known⟩ := Option.map_eq_some_iff.mp met
  obtain ⟨m, attached, members, _, _⟩ := members_agree new lateMessage host
  refine ⟨h, m, host, attached, known, ?_⟩
  intro p
  rw [members p, known, List.mem_singleton]

end Cluster

end Workshare
