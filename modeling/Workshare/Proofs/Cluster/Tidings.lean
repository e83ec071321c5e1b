import Workshare.Cluster.Operations
import Workshare.Proofs.Manager.Relays
import Workshare.Proofs.Net.Standing

namespace Workshare

def MembershipChange.notice : MembershipChange → Notice
  | .joined n => .join n
  | .left n => .leave n

def Manager.attend (m : Manager) (changes : List MembershipChange) : Manager :=
  changes.foldl (fun m change => (m.hear change.notice).drain.2) m

theorem Manager.attend_outbox {m : Manager} (quiet : m.outbox = []) (changes : List MembershipChange) :
    (m.attend changes).outbox = [] := by
  induction changes generalizing m with
  | nil => exact quiet
  | cons change changes ih => exact ih rfl

theorem Manager.attend_append (m : Manager) (xs ys : List MembershipChange) :
    m.attend (xs ++ ys) = (m.attend xs).attend ys :=
  List.foldl_append

/-- What is asked for while hearing of changes of the members. -/
def Manager.echoes (m : Manager) : List MembershipChange → List Effect
  | [] => []
  | change :: changes => (m.hear change.notice).outbox ++ (m.attend [change]).echoes changes

theorem Manager.echoes_append (m : Manager) (xs ys : List MembershipChange) :
    m.echoes (xs ++ ys) = m.echoes xs ++ (m.attend xs).echoes ys := by
  induction xs generalizing m with
  | nil => rfl
  | cons change xs ih =>
    show (m.hear change.notice).outbox ++ (m.attend [change]).echoes (xs ++ ys) = _
    rw [ih, ← List.append_assoc]
    rfl

theorem Manager.tags_hear (m : Manager) (change : MembershipChange) : (m.hear change.notice).tags = m.tags := by
  cases change with
  | joined n => exact (Relays.join m n).tags
  | left n => exact (Relays.leave m n).tags

theorem Manager.id_hear (m : Manager) (change : MembershipChange) : (m.hear change.notice).id = m.id := by
  cases change with
  | joined n => exact tell_id _ _
  | left n => exact leave_id m n

theorem Manager.outbox_hear {m : Manager} (quiet : m.outbox = []) (change : MembershipChange) :
    (m.hear change.notice).outbox =
      if change = .left m.id then [] else m.tags.map (.notify · change.notice) := by
  have notified : ∀ notice, m.listeners.filterMap (·.notification? notice) = m.tags.map (.notify · notice) := by
    intro notice
    unfold tags
    rw [List.map_filterMap]
    rfl
  cases change with
  | joined n =>
    show (m.join n).outbox = _
    rw [join, tell_eq, if_neg nofun]
    show m.outbox ++ _ = _
    rw [quiet, List.nil_append]
    exact notified _
  | left n =>
    show (m.leave n).outbox = _
    unfold leave
    by_cases own : n = m.id
    · rw [if_pos own, if_pos (congrArg MembershipChange.left own)]
      exact quiet
    · rw [if_neg own, tell_eq, if_neg fun e => own (MembershipChange.left.inj e)]
      show m.outbox ++ _ = _
      rw [quiet, List.nil_append]
      exact notified _

/-- Every listener is told of every change once, in turn. That the node itself has left nobody is told. -/
theorem Manager.echoes_eq {m : Manager} (quiet : m.outbox = []) (changes : List MembershipChange) :
    m.echoes changes =
      (changes.filter (· ≠ .left m.id)).flatMap fun change => m.tags.map (.notify · change.notice) := by
  induction changes generalizing m with
  | nil => rfl
  | cons change changes ih =>
    have tags : (m.attend [change]).tags = m.tags := m.tags_hear change
    have id : (m.attend [change]).id = m.id := m.id_hear change
    have rest := ih (Manager.attend_outbox quiet [change])
    rw [tags, id] at rest
    rw [echoes, rest, outbox_hear quiet]
    by_cases own : change = .left m.id
    · simp [own]
    · simp [own]

/-- Whom a host asks for the free workers when a view has made a change. -/
def MembershipChange.asked (self : NodeId) : MembershipChange → List NodeId
  | .joined n => if n = self then [] else [n]
  | .left _ => []

namespace Table

variable {κ α : Type} [Key κ]

theorem insert_insert (t : Table κ α) (k : κ) (v w : α) : (t.insert k v).insert k w = t.insert k w := by
  apply ext_get?
  intro j
  rw [get?_insert, get?_insert, get?_insert]
  split
  next => rfl
  next => rfl

theorem insert_of_get? {t : Table κ α} {k : κ} {v : α} (h : t.get? k = some v) : t.insert k v = t := by
  apply ext_get?
  intro j
  rw [get?_insert]
  split
  next hj => rw [hj, h]
  next => rfl

end Table

namespace Cluster

/-- Begins to ask peers of a host for their free workers. -/
def inquire (c : Cluster) (n : NodeId) (peers : List NodeId) : Cluster :=
  peers.foldl (fun c peer => (c.spawn (.refresh n peer)).1) c

/-- Takes in a view at a host, whose members and absentees are gone through in the given order. -/
def takeIn (c : Cluster) (n : NodeId) (gone : List NodeId) (listed : List (NodeId × String)) : Cluster :=
  let (c, changes) := c.withBook n (·.takeIn gone listed)
  changes.foldl (reportView n) c

/-- What news that come to host `n` make of a cluster: a view, in whatever order it is gone through, or a message. -/
inductive Learns (n : NodeId) (c : Cluster) : Tiding String → Cluster → Prop
  | join (t : Ticket) {op : UInt16} {body : List UInt8} {p : NodeId} {a : String} :
      Request.decode .string op body = .ok (.join p a) → Learns n c (.join p a) (c.serve t n op body).1
  | leave (t : Ticket) {op : UInt16} {body : List UInt8} {p : NodeId} :
      Request.decode .string op body = .ok (.leave p) → Learns n c (.leave p) (c.serve t n op body).1
  | view {h : Host} {members listed : List (NodeId × String)} {gone : List NodeId} : c.host? n = some h →
      gone.Perm (h.book.departed members) → listed.Perm (Table.ofList members).entries →
      Learns n c (.view members) (c.takeIn n gone listed)

/-- News that come to a host one after the other. -/
inductive LearnsAll (n : NodeId) : Cluster → List (Tiding String) → Cluster → Prop
  | nil (c : Cluster) : LearnsAll n c [] c
  | cons {c c₁ c' : Cluster} {x : Tiding String} {news : List (Tiding String)} :
      c.Learns n x c₁ → LearnsAll n c₁ news c' → LearnsAll n c (x :: news) c'

variable {c c' : Cluster} {n : NodeId} {h : Host} {m : Manager}

theorem withBook_eq (host : c.host? n = some h)
    (f : AddressBook String → AddressBook String × List MembershipChange) :
    c.withBook n f = (c.setHost n { h with book := (f h.book).1 }, (f h.book).2) := by
  unfold withBook
  rw [host]

theorem learns_onView (host : c.host? n = some h) (members : List (NodeId × String)) :
    c.Learns n (.view members) (c.onView n members) := by
  have taken : c.onView n members = c.takeIn n (h.book.departed members) (Table.ofList members).entries := by
    unfold onView takeIn
    rw [withBook_eq host, withBook_eq host]
    rfl
  rw [taken]
  exact .view host (.refl _) (.refl _)

theorem serve_join (t : Ticket) (n : NodeId) {op : UInt16} {body : List UInt8} {p : NodeId} {a : String}
    (hd : Request.decode .string op body = .ok (.join p a)) : (c.serve t n op body).1 = c.addMember n p a := by
  unfold serve
  rw [hd]
  rfl

theorem serve_leave (t : Ticket) (n : NodeId) {op : UInt16} {body : List UInt8} {p : NodeId}
    (hd : Request.decode .string op body = .ok (.leave p)) : (c.serve t n op body).1 = c.removeMember n p := by
  unfold serve
  rw [hd]
  rfl

theorem performAll_of_silent (n : NodeId) {effects : List Effect}
    (silent : ∀ e ∈ effects, (e.request? : Option (Request String)) = none) (c : Cluster) :
    effects.foldl (perform n) c = { c with events := c.events ++ effects.map (Event.effect n) } := by
  induction effects generalizing c with
  | nil => rw [List.map_nil, List.append_nil]; rfl
  | cons e effects ih =>
    have first : perform n c e = { c with events := c.events ++ [Event.effect n e] } := by
      unfold perform
      rw [silent e List.mem_cons_self]
      rfl
    rw [List.foldl_cons, first, ih fun x hx => silent x (List.mem_cons_of_mem e hx)]
    simp

theorem request?_of_notification {l : Listener} {notice : Notice} {e : Effect}
    (h : l.notification? notice = some e) : (e.request? : Option (Request String)) = none := by
  obtain ⟨tag, _, rfl⟩ := Option.map_eq_some_iff.mp h
  rfl

theorem silent_tell {m : Manager} (quiet : m.outbox = []) (notice : Notice) :
    ∀ e ∈ (m.tell notice).outbox, (e.request? : Option (Request String)) = none := by
  intro e he
  rw [Manager.tell_eq, quiet] at he
  obtain ⟨l, _, hl⟩ := List.mem_filterMap.mp he
  exact request?_of_notification hl

/-- A change of the members is told to the listeners alone. -/
theorem silent_hear (quiet : m.outbox = []) (change : MembershipChange) :
    ∀ e ∈ (m.hear change.notice).outbox, (e.request? : Option (Request String)) = none := by
  cases change with
  | joined p =>
    have changed : ({ m with members := m.members.insert p, capacity := m.capacity.register p } : Manager).outbox =
        [] := quiet
    exact silent_tell changed _
  | left p =>
    have changed : ({ m with members := m.members.erase p, capacity := m.capacity.remove p } : Manager).outbox = [] :=
      quiet
    show ∀ e ∈ (m.leave p).outbox, _
    unfold Manager.leave
    split
    next =>
      intro e he
      rw [quiet] at he
      cases he
    next => exact silent_tell changed _

theorem report_eq (n : NodeId) (c : Cluster) (change : MembershipChange) :
    report n c change = c.tell n (·.hear change.notice) := by
  cases change with
  | joined p => rfl
  | left p => rfl

theorem report_effect (host : c.host? n = some h) (attached : h.manager = some m) (quiet : m.outbox = [])
    (change : MembershipChange) : report n c change =
      { c with
        hosts := c.hosts.insert n { h with manager := some (m.attend [change]) }
        events := c.events ++ (m.echoes [change]).map (Event.effect n) } := by
  have echo : m.echoes [change] = (m.hear change.notice).outbox := List.append_nil _
  rw [report_eq, echo]
  unfold tell manage
  simp only [host, attached]
  exact performAll_of_silent n (silent_hear quiet change) _

/-- Whom a host begins to ask does not depend on the hosts. -/
theorem inquire_congr (hosts : Table NodeId Host) (events : List Event) (c : Cluster) (n : NodeId)
    (peers : List NodeId) : inquire { c with hosts := hosts, events := events } n peers =
      { c.inquire n peers with hosts := hosts, events := events } := by
  induction peers generalizing c with
  | nil => rfl
  | cons peer peers ih => exact ih (c.spawn (.refresh n peer)).1

theorem inquire_append (c : Cluster) (n : NodeId) (xs ys : List NodeId) :
    c.inquire n (xs ++ ys) = (c.inquire n xs).inquire n ys :=
  List.foldl_append

theorem hosts_attend_nil (host : c.host? n = some h) (attached : h.manager = some m) :
    c.hosts.insert n { h with manager := some (m.attend []) } = c.hosts := by
  have same : ({ h with manager := some m } : Host) = h := by rw [← attached]
  have same : ({ h with manager := some (m.attend []) } : Host) = h := same
  rw [same, Table.insert_of_get? host]

/-- The manager hears of each change, and after each some peers may be asked. -/
theorem reportEach_effect (ask : MembershipChange → List NodeId) (host : c.host? n = some h)
    (attached : h.manager = some m) (quiet : m.outbox = []) (changes : List MembershipChange) :
    changes.foldl (fun c change => (report n c change).inquire n (ask change)) c =
      { c.inquire n (changes.flatMap ask) with
        hosts := c.hosts.insert n { h with manager := some (m.attend changes) }
        events := c.events ++ (m.echoes changes).map (Event.effect n) } := by
  induction changes generalizing c h m with
  | nil =>
    rw [hosts_attend_nil host attached]
    exact congrArg (fun events => { c with events := events }) (List.append_nil c.events).symm
  | cons change changes ih =>
    have once : (report n c change).inquire n (ask change) =
        { c.inquire n (ask change) with
          hosts := c.hosts.insert n { h with manager := some (m.attend [change]) }
          events := c.events ++ (m.echoes [change]).map (Event.effect n) } := by
      rw [report_effect host attached quiet change, inquire_congr]
    have there : ((report n c change).inquire n (ask change)).host? n =
        some { h with manager := some (m.attend [change]) } := by
      rw [once]
      exact (Table.get?_insert _ _ _ _).trans (if_pos rfl)
    have rest := ih there rfl (Manager.attend_outbox quiet [change])
    have echoes : m.echoes (change :: changes) = m.echoes [change] ++ (m.attend [change]).echoes changes :=
      m.echoes_append [change] changes
    rw [List.foldl_cons, rest, once, inquire_congr, Table.insert_insert, List.flatMap_cons, inquire_append, echoes,
      List.map_append, ← List.append_assoc]
    rfl

theorem reportAll_effect (host : c.host? n = some h) (attached : h.manager = some m) (quiet : m.outbox = [])
    (changes : List MembershipChange) : changes.foldl (report n) c =
      { c with
        hosts := c.hosts.insert n { h with manager := some (m.attend changes) }
        events := c.events ++ (m.echoes changes).map (Event.effect n) } := by
  have each := reportEach_effect (fun _ => []) host attached quiet changes
  rwa [List.flatMap_eq_nil_iff.mpr fun _ _ => rfl] at each

theorem reportView_eq (n : NodeId) (c : Cluster) (change : MembershipChange) :
    reportView n c change = (report n c change).inquire n (change.asked n) := by
  cases change with
  | joined p =>
    unfold reportView
    by_cases hp : p = n
    · simp [hp, MembershipChange.asked, inquire]
    · simp [hp, MembershipChange.asked, inquire]
  | left p => rfl

theorem reportViewAll_effect (host : c.host? n = some h) (attached : h.manager = some m) (quiet : m.outbox = [])
    (changes : List MembershipChange) : changes.foldl (reportView n) c =
      { c.inquire n (changes.flatMap (·.asked n)) with
        hosts := c.hosts.insert n { h with manager := some (m.attend changes) }
        events := c.events ++ (m.echoes changes).map (Event.effect n) } := by
  have each : reportView n = fun c change => (report n c change).inquire n (change.asked n) := by
    funext c change
    exact reportView_eq n c change
  rw [each]
  exact reportEach_effect (·.asked n) host attached quiet changes

/-- What news do to host `n`, given what they make of its book: its manager hears of the changes, and whoever has
become known by a view is asked. -/
def learnt (c : Cluster) (n : NodeId) (h : Host) (m : Manager) (byView : Bool)
    (r : AddressBook String × List MembershipChange) : Cluster :=
  { c.inquire n (if byView then r.2.flatMap (·.asked n) else []) with
    hosts := c.hosts.insert n { h with book := r.1, manager := some (m.attend r.2) }
    events := c.events ++ (m.echoes r.2).map (Event.effect n) }

theorem host_learnt (c : Cluster) (n : NodeId) (h : Host) (m : Manager) (byView : Bool)
    (r : AddressBook String × List MembershipChange) :
    (c.learnt n h m byView r).host? n = some { h with book := r.1, manager := some (m.attend r.2) } :=
  (Table.get?_insert _ _ _ _).trans (if_pos rfl)

theorem reportAll_learnt (attached : h.manager = some m) (quiet : m.outbox = []) (c : Cluster)
    (r : AddressBook String × List MembershipChange) :
    r.2.foldl (report n) (c.setHost n { h with book := r.1 }) = c.learnt n h m false r := by
  have booked : (c.setHost n { h with book := r.1 }).host? n = some { h with book := r.1 } :=
    (Table.get?_insert _ _ _ _).trans (if_pos rfl)
  rw [reportAll_effect booked attached quiet, setHost, Table.insert_insert]
  rfl

theorem reportViewAll_learnt (attached : h.manager = some m) (quiet : m.outbox = []) (c : Cluster)
    (r : AddressBook String × List MembershipChange) :
    r.2.foldl (reportView n) (c.setHost n { h with book := r.1 }) = c.learnt n h m true r := by
  have booked : (c.setHost n { h with book := r.1 }).host? n = some { h with book := r.1 } :=
    (Table.get?_insert _ _ _ _).trans (if_pos rfl)
  rw [reportViewAll_effect booked attached quiet, setHost, inquire_congr, Table.insert_insert]
  rfl

theorem addMember_effect (host : c.host? n = some h) (attached : h.manager = some m) (quiet : m.outbox = [])
    (p : NodeId) (a : String) : c.addMember n p a = c.learnt n h m false (h.book.add p a) := by
  rw [addMember, withBook_eq host]
  exact reportAll_learnt attached quiet c _

theorem removeMember_effect (host : c.host? n = some h) (attached : h.manager = some m) (quiet : m.outbox = [])
    (p : NodeId) : c.removeMember n p = c.learnt n h m false (h.book.remove p) := by
  rw [removeMember, withBook_eq host]
  exact reportAll_learnt attached quiet c _

theorem takeIn_effect (host : c.host? n = some h) (attached : h.manager = some m) (quiet : m.outbox = [])
    (gone : List NodeId) (listed : List (NodeId × String)) :
    c.takeIn n gone listed = c.learnt n h m true (h.book.takeIn gone listed) := by
  rw [takeIn, withBook_eq host]
  exact reportViewAll_learnt attached quiet c _

theorem onView_effect (host : c.host? n = some h) (attached : h.manager = some m) (quiet : m.outbox = [])
    (members : List (NodeId × String)) : c.onView n members = c.learnt n h m true (h.book.onView members) := by
  rw [onView, withBook_eq host]
  exact reportViewAll_learnt attached quiet c _

/-- News do nothing else to a host. -/
theorem Learns.effect {x : Tiding String} (learns : c.Learns n x c') (host : c.host? n = some h)
    (attached : h.manager = some m) (quiet : m.outbox = []) :
    ∃ r, h.book.Learns x r ∧ c' = c.learnt n h m x.isView r := by
  cases learns with
  | join t hd =>
    rename_i op body p a
    refine ⟨_, .join p a, ?_⟩
    rw [serve_join t n hd]
    exact addMember_effect host attached quiet p a
  | leave t hd =>
    rename_i op body p
    refine ⟨_, .leave p, ?_⟩
    rw [serve_leave t n hd]
    exact removeMember_effect host attached quiet p
  | view there hg hl =>
    rename_i h' members listed gone
    obtain rfl : h = h' := Option.some.inj (host.symm.trans there)
    exact ⟨_, .view hg hl, takeIn_effect host attached quiet gone listed⟩

theorem count_asked (n p : NodeId) (changes : List MembershipChange) :
    (changes.flatMap (·.asked n)).count p =
      if p = n then 0 else (AddressBook.about p changes).count (.joined p) := by
  induction changes with
  | nil => simp [AddressBook.about]
  | cons change changes ih =>
    rw [List.flatMap_cons, List.count_append, ih]
    unfold AddressBook.about
    cases change with
    | joined q =>
      by_cases hq : q = p
      · subst hq
        by_cases hn : q = n
        · simp [MembershipChange.asked, hn]
        · simp [MembershipChange.asked, MembershipChange.node, hn, Nat.add_comm]
      · by_cases hn : q = n
        · subst hn
          simp [MembershipChange.asked, MembershipChange.node, hq]
        · simp [MembershipChange.asked, MembershipChange.node, hq, hn]
    | left q =>
      by_cases hq : q = p
      · simp [MembershipChange.asked, MembershipChange.node, hq]
      · simp [MembershipChange.asked, MembershipChange.node, hq]

theorem count_change? (p : NodeId) (s s' : Standing String) :
    (Standing.change? p s s').toList.count (.joined p) = if !s.isKnown && s'.isKnown then 1 else 0 := by
  unfold Standing.change?
  cases s.isKnown <;> cases s'.isKnown <;> simp

/-- Where news leave a host, from the standings in its book on. -/
theorem LearnsAll.effect {news : List (Tiding String)} (learns : c.LearnsAll n news c') (host : c.host? n = some h)
    (attached : h.manager = some m) (quiet : m.outbox = []) (listed : h.book.Listed) :
    ∃ (book : AddressBook String) (told : List MembershipChange) (asked : List NodeId),
      c' = { c.inquire n asked with
        hosts := c.hosts.insert n { h with book := book, manager := some (m.attend told) }
        events := c.events ++ (m.echoes told).map (Event.effect n) } ∧
      book.Listed ∧ (∀ p, book.standing p = news.foldl (Standing.after p) (h.book.standing p)) ∧
      (∀ p, AddressBook.about p told = Standing.changes p (h.book.standing p) news) ∧
      ∀ p, asked.count p = if p = n then 0 else Standing.discoveries p (h.book.standing p) news := by
  induction learns generalizing h m with
  | nil c =>
    refine ⟨h.book, [], [], ?_, listed, fun _ => rfl, fun _ => rfl, fun p => by simp [Standing.discoveries]⟩
    have hosts := hosts_attend_nil host attached
    rw [show c.hosts.insert n { h with book := h.book, manager := some (m.attend []) } = c.hosts from hosts]
    exact congrArg (fun events => { c with events := events }) (List.append_nil c.events).symm
  | cons first rest ih =>
    rename_i c c₁ c' x news
    obtain ⟨r, learnt, rfl⟩ := first.effect host attached quiet
    have follows := learnt.after listed
    have there := c.host_learnt n h m x.isView r
    obtain ⟨book, told, asked, he, listed', standing, heard, counts⟩ :=
      ih there rfl (Manager.attend_outbox quiet r.2) follows.listed
    refine ⟨book, r.2 ++ told, (if x.isView then r.2.flatMap (·.asked n) else []) ++ asked, ?_, listed', ?_, ?_, ?_⟩
    · rw [he, Cluster.learnt, inquire_congr, Table.insert_insert, inquire_append, Manager.attend_append,
        Manager.echoes_append, List.map_append, List.append_assoc]
    · intro p
      rw [standing p, follows.standing p]
      rfl
    · intro p
      rw [AddressBook.about_append, follows.told p, heard p, follows.standing p]
      rfl
    · intro p
      rw [List.count_append, counts p, follows.standing p]
      by_cases hp : p = n
      · cases x.isView <;> simp [hp, count_asked]
      · rw [if_neg hp, if_neg hp, Standing.discoveries]
        cases x.isView <;> simp [count_asked, hp, follows.told p, count_change?]

/-- Messages and views come to a host whose book is new. Its book knows of each node what the standing of that node
says, its manager has been told the changes of these standings, each once, and the host has asked the peers that
became known by a view. Nothing else has happened. To take in once more the view that has come last changes nothing. -/
theorem learns_by_standing {news : List (Tiding String)} (host : c.host? n = some h) (new : h.book = .start n)
    (attached : h.manager = some m) (quiet : m.outbox = []) (learns : c.LearnsAll n news c') :
    ∃ (book : AddressBook String) (told : List MembershipChange) (asked : List NodeId),
      c' = { c.inquire n asked with
        hosts := c.hosts.insert n { h with book := book, manager := some (m.attend told) }
        events := c.events ++ ((told.filter (· ≠ .left m.id)).flatMap fun change =>
          m.tags.map fun tag => .effect n (.notify tag change.notice)) } ∧
      c'.host? n = some { h with book := book, manager := some (m.attend told) } ∧
      (∀ p, book.resolve p = (standing p news).address?) ∧
      (∀ p, book.viewed.contains p = (standing p news).isViewed) ∧
      (∀ p, AddressBook.about p told = Standing.changes p .unknown news) ∧
      (∀ p, asked.count p = if p = n then 0 else Standing.discoveries p .unknown news) ∧
      ∀ members c'', news.getLast? = some (.view members) → c'.Learns n (.view members) c'' → c'' = c' := by
  have listed : h.book.Listed := by rw [new]; exact AddressBook.listed_start n
  have unknown : ∀ p, h.book.standing p = .unknown := by
    intro p
    rw [new]
    rfl
  obtain ⟨book, told, asked, he, listed', stands, heard, counts⟩ := learns.effect host attached quiet listed
  simp only [unknown] at stands heard counts
  have there : c'.host? n = some { h with book := book, manager := some (m.attend told) } := by
    rw [he]
    exact (Table.get?_insert _ _ _ _).trans (if_pos rfl)
  have echoes : (m.echoes told).map (Event.effect n) = (told.filter (· ≠ .left m.id)).flatMap fun change =>
      m.tags.map fun tag => .effect n (.notify tag change.notice) := by
    rw [Manager.echoes_eq quiet, List.map_flatMap]
    simp only [List.map_map, Function.comp_def]
  refine ⟨book, told, asked, by rw [← echoes]; exact he, there, ?_, ?_, heard, counts, ?_⟩
  · intro p
    rw [← AddressBook.address?_standing, stands p]
    rfl
  · intro p
    rw [← listed'.isViewed_standing, stands p]
    rfl
  · intro members c'' last again
    obtain ⟨earlier, rfl⟩ := List.getLast?_eq_some_iff.mp last
    -- after a view everybody stands where the same view would put it
    have known : ∀ p, (book.standing p).after p (.view members) = book.standing p := by
      intro p
      rw [stands p, List.foldl_append]
      exact Standing.after_view_view p _ members
    obtain ⟨r, learnt, rfl⟩ := again.effect there rfl (Manager.attend_outbox quiet told)
    obtain rfl := learnt.nothing_new listed' known
    have same := hosts_attend_nil there rfl
    unfold Cluster.learnt
    have same : c'.hosts.insert n { h with book := book, manager := some ((m.attend told).attend []) } = c'.hosts :=
      same
    rw [same]
    exact congrArg (fun events => { c' with events := events }) (List.append_nil c'.events)

/-- A host that knows nobody yet, with somebody who watches its manager. -/
def newcomer : Cluster :=
  start [(⟨"a"⟩, ⟨.pool ⟨.ofSize 2, .ofSize 2, ⟨1000000⟩, .empty⟩,
    some ((Manager.start ⟨"a"⟩ .default ⟨2, 2⟩).addListener (.external ⟨"watch", 0⟩)).drain.2, .start ⟨"a"⟩, ⟨5000000⟩⟩)]

/-- Node b tells of itself before any view lists it; node c comes and goes with the views. -/
def overtaken : List (Tiding String) :=
  [.join ⟨"b"⟩ "b", .view [(⟨"a"⟩, "a"), (⟨"c"⟩, "c")], .view [(⟨"a"⟩, "a")]]

theorem learns_by_standing_overtaken :
    ∃ c' book told asked, newcomer.LearnsAll ⟨"a"⟩ overtaken c' ∧
      (c'.host? ⟨"a"⟩).map (·.book) = some book ∧ book.resolve ⟨"b"⟩ = some "b" ∧ book.resolve ⟨"c"⟩ = none ∧
      AddressBook.about ⟨"c"⟩ told = [.joined ⟨"c"⟩, .left ⟨"c"⟩] ∧ c'.tasks = (newcomer.inquire ⟨"a"⟩ asked).tasks ∧
      asked.count ⟨"b"⟩ = 0 ∧ asked.count ⟨"c"⟩ = 1 ∧
      c'.events = [.join ⟨"b"⟩, .join ⟨"a"⟩, .join ⟨"c"⟩, .leave ⟨"c"⟩].map
        (.effect ⟨"a"⟩ <| .notify ⟨"watch", 0⟩ ·) := by
  have decoded : Request.decode .string (Request.encode .string (.join ⟨"b"⟩ "b")).1
      (Request.encode .string (.join ⟨"b"⟩ "b")).2 = .ok (.join ⟨"b"⟩ "b") := rfl
  have joined : newcomer.Learns ⟨"a"⟩ (.join ⟨"b"⟩ "b") (newcomer.addMember ⟨"a"⟩ ⟨"b"⟩ "b") := by
    rw [← serve_join 0 ⟨"a"⟩ decoded]
    exact .join 0 decoded
  have greeted : (newcomer.addMember ⟨"a"⟩ ⟨"b"⟩ "b").host? ⟨"a"⟩ = some _ := rfl
  have seen := learns_onView greeted [(⟨"a"⟩, "a"), (⟨"c"⟩, "c")]
  have crowded : ((newcomer.addMember ⟨"a"⟩ ⟨"b"⟩ "b").onView ⟨"a"⟩ [(⟨"a"⟩, "a"), (⟨"c"⟩, "c")]).host? ⟨"a"⟩ =
      some _ := rfl
  have missed := learns_onView crowded [(⟨"a"⟩, "a")]
  have all : newcomer.LearnsAll ⟨"a"⟩ overtaken _ := .cons joined (.cons seen (.cons missed (.nil _)))
  obtain ⟨book, told, asked, whole, there, resolves, _, heard, counts, _⟩ :=
    learns_by_standing (c := newcomer) (n := ⟨"a"⟩) rfl rfl rfl rfl all
  have tasks := congrArg Cluster.tasks whole
  refine ⟨_, book, told, asked, all, by rw [there]; rfl, ?_, ?_, ?_, tasks, ?_, ?_, rfl⟩
  · rw [resolves]
    rfl
  · rw [resolves]
    rfl
  · rw [heard]
    rfl
  · rw [counts]
    rfl
  · rw [counts]
    rfl

end Cluster

end Workshare
