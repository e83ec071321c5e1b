import Workshare.Cluster.Operations
import Workshare.Proofs.Manager.Emissions
import Workshare.Proofs.Wire.RoundTrip

namespace Workshare

/-- A question to a strategy, a work that is handed over, or what an executor says about a work. -/
def Event.isLoud : Event → Bool
  | .effect _ e => !e.isCalm
  | .answered _ _ _ => true
  | .ran _ _ _ => false
  | .completed _ _ _ => false
  | .dropped _ _ => false

/-- A request that submits no work and introduces nobody under the name of another. -/
def Request.IsIdle (r : Request String) : Prop :=
  r.submission? = none ∧ ∀ n a, r = .join n a → a = n.text

/-- A message that is no idle request cannot be read. -/
def Idle (op : UInt16) (body : List UInt8) : Prop :=
  ∀ r, Request.decode .string op body = .ok r → r.IsIdle

def Purpose.isSubmit : Purpose → Bool
  | .submit _ => true
  | _ => false

/-- An exchange that hands over no work. -/
def Exchange.Harmless : Exchange → Prop
  | .travelling _ op body => Idle op body
  | .serving _ => False

/-- A task that hands over no work. -/
def Task.Harmless : Task → Prop
  | .submit _ _ _ _ => False
  | .ask _ _ request purpose =>
    Idle (request.encode .string).1 (request.encode .string).2 ∧ purpose.isSubmit = false
  | .serve _ _ _ => False
  | .errand _ _ => False
  | .call x purpose => x.exchange.Harmless ∧ x.target = x.peer.text ∧ purpose.isSubmit = false
  | .broadcast _ _ op body => Idle op body
  | .post _ op body _ => Idle op body
  | .deliver _ op body _ => Idle op body
  | .refresh _ _ => True
  | .runner _ _ _ _ => True
  | .handler _ _ _ _ => True

/-- Whoever is in an address book is there under its own name. -/
def AddressBook.Truthful (b : AddressBook String) : Prop :=
  ∀ q a, b.addresses.get? q = some a → a = q.text

/-- A host with a manager of its name, which keeps no effects back. -/
structure Host.Sane (n : NodeId) (h : Host) : Prop where
  fits : Fits n.text
  manager : ∃ m, h.manager = some m ∧ m.id = n ∧ m.outbox = []
  book : h.book.Truthful

namespace Request

theorem isIdle_of_operation {r r' : Request String} (h : r.operation = r'.operation) (hr : r'.submission? = none)
    (hj : r'.operation ≠ .join) : r.IsIdle := by
  constructor
  · cases r <;> cases r' <;> first | rfl | (cases h; done) | cases hr
  · rintro n a rfl
    exact absurd h.symm hj

theorem idle_of_ne_join {r : Request String} (hr : r.submission? = none) (hj : r.operation ≠ .join) :
    Idle (r.encode .string).1 (r.encode .string).2 := by
  intro r' h
  exact isIdle_of_operation (operation_of_decode h) hr hj

theorem idle_join {n : NodeId} (h : Fits n.text) :
    Idle (Request.encode .string (.join n n.text)).1 (Request.encode .string (.join n n.text)).2 := by
  intro r hd
  have hk := ((NodeId.keeps_codec h).pair (Wire.Codec.keeps_string h)).decode
  have hb : ofBody .string ((NodeId.codec.pair .string).write (n, n.text)) .join = .ok (.join n n.text) := by
    rw [ofBody, hk]
    rfl
  have he : decode .string Operation.join.id ((NodeId.codec.pair .string).write (n, n.text)) = .ok r := hd
  rw [decode_id, hb] at he
  cases he
  exact ⟨rfl, fun _ _ e => by cases e; rfl⟩

end Request

namespace AddressBook

/-- Whoever is in an address book is there on these terms. -/
def Lists (P : NodeId → String → Prop) (b : AddressBook String) : Prop :=
  ∀ q a, b.addresses.get? q = some a → P q a

variable {P : NodeId → String → Prop} {b : AddressBook String}

theorem lists_start (n : NodeId) : (start n : AddressBook String).Lists P :=
  fun _ _ h => by cases h

namespace Lists

theorem add (h : b.Lists P) {n : NodeId} {a : String} (ha : P n a) : (b.add n a).1.Lists P := by
  intro q x hq
  have hq : (b.addresses.insert n a).get? q = some x := hq
  rw [Table.get?_insert] at hq
  split at hq
  next e => cases hq; rw [e]; exact ha
  next => exact h q x hq

theorem remove (h : b.Lists P) (n : NodeId) : (b.remove n).1.Lists P := by
  intro q x hq
  have hq : (b.addresses.erase n).get? q = some x := hq
  rw [Table.get?_erase] at hq
  split at hq
  next => cases hq
  next => exact h q x hq

theorem collect {β : Type} {step : AddressBook String → β → AddressBook String × List MembershipChange}
    {xs : List β} (h : b.Lists P) (hstep : ∀ b x, x ∈ xs → b.Lists P → (step b x).1.Lists P) :
    (AddressBook.collect step b xs).1.Lists P := by
  induction xs generalizing b with
  | nil => exact h
  | cons x xs ih => exact ih (hstep b x List.mem_cons_self h) fun b y hy => hstep b y (List.mem_cons_of_mem x hy)

end Lists

theorem get?_ofList {κ α : Type} [Key κ] {l : List (κ × α)} {k : κ} {v : α} (h : (Table.ofList l).get? k = some v) :
    (k, v) ∈ l := by
  have go : ∀ (l : List (κ × α)) (t : Table κ α),
      (l.foldl (fun t e => t.insert e.1 e.2) t).get? k = some v → t.get? k = some v ∨ (k, v) ∈ l := by
    intro l
    induction l with
    | nil => intro t h; exact .inl h
    | cons e l ih =>
      intro t h
      rcases ih _ h with h | h
      · rw [Table.get?_insert] at h
        split at h
        next hk => cases h; exact .inr (by rw [hk]; exact List.mem_cons_self)
        next => exact .inl h
      · exact .inr (List.mem_cons_of_mem _ h)
  rcases go l .empty h with h | h
  · cases h
  · exact h

theorem Lists.onView (h : b.Lists P) {view : List (NodeId × String)} (hv : ∀ e ∈ view, P e.1 e.2) :
    (b.onView view).1.Lists P := by
  unfold AddressBook.onView
  refine Lists.collect (Lists.collect h fun b n _ hb => hb.remove n) ?_
  intro b e he hb
  have hm := get?_ofList (Table.get?_eq_some_iff.mpr he)
  have hb' : ({ b with viewed := b.viewed.insert e.1 } : AddressBook String).Lists P := hb
  exact hb'.add (hv e hm)

theorem truthful_start (n : NodeId) : (start n : AddressBook String).Truthful :=
  lists_start n

theorem Truthful.add (h : b.Truthful) {n : NodeId} {a : String} (ha : a = n.text) : (b.add n a).1.Truthful :=
  Lists.add h ha

theorem Truthful.remove (h : b.Truthful) (n : NodeId) : (b.remove n).1.Truthful :=
  Lists.remove h n

theorem Truthful.onView (h : b.Truthful) {view : List (NodeId × String)} (hv : ∀ e ∈ view, e.2 = e.1.text) :
    (b.onView view).1.Truthful :=
  Lists.onView h hv

end AddressBook

namespace Cluster

/-- Every host is sane. -/
def Sane (c : Cluster) : Prop :=
  ∀ n h, c.hosts.get? n = some h → h.Sane n

/-- The clock, the timers and who is to be woken may be others, and so may signals and verdicts. -/
structure Aside (c c' : Cluster) : Prop where
  hosts : c'.hosts = c.hosts
  net : c'.net = c.net
  tasks : c'.tasks = c.tasks
  fresh : c'.fresh = c.fresh
  answers : c'.answers = c.answers
  events : c'.events = c.events

theorem Aside.wakeAll (c : Cluster) (ts : List Ticket) : Aside c (c.wakeAll ts) := by
  obtain ⟨_, _, e⟩ := c.wakeAll_eq ts
  rw [e]
  exact ⟨rfl, rfl, rfl, rfl, rfl, rfl⟩

/-- What goes on in a cluster leaves alone whatever is not its own, and makes the loud events that it is known for. -/
structure Change (own : Option Ticket) (c c' : Cluster) (loud : List Event) : Prop where
  fresh : c.fresh ≤ c'.fresh
  kept : ∀ v, v < c.fresh → own ≠ some v → c'.tasks.get? v = c.tasks.get? v
  newcomers : ∀ v task, own ≠ some v → c'.tasks.get? v = some task →
    c.tasks.get? v = some task ∨ c.fresh ≤ v ∧ v < c'.fresh ∧ task.Harmless
  events : ∃ news, c'.events = c.events ++ news ∧ news.filter Event.isLoud = loud
  hosts : ∀ n, c'.hosts.contains n = c.hosts.contains n
  sane : c'.Sane

/-- A piece of work that leaves all tasks alone and answers nobody. -/
structure Works (c c' : Cluster) (loud : List Event) : Prop extends Change none c c' loud where
  answers : c'.answers = c.answers

namespace Change

variable {own : Option Ticket} {c c' c'' : Cluster} {loud loud' : List Event}

theorem trans (h : Change own c c' loud) (h' : Change own c' c'' loud') : Change own c c'' (loud ++ loud') := by
  obtain ⟨news, hn, hl⟩ := h.events
  obtain ⟨news', hn', hl'⟩ := h'.events
  refine ⟨Nat.le_trans h.fresh h'.fresh, ?_, ?_, ?_, ?_, h'.sane⟩
  · intro v hv hne
    rw [h'.kept v (Nat.lt_of_lt_of_le hv h.fresh) hne, h.kept v hv hne]
  · intro v task hne hv
    rcases h'.newcomers v task hne hv with hv | ⟨hle, hlt, hh⟩
    · rcases h.newcomers v task hne hv with hv | ⟨hle, hlt, hh⟩
      · exact .inl hv
      · exact .inr ⟨hle, Nat.lt_of_lt_of_le hlt h'.fresh, hh⟩
    · exact .inr ⟨Nat.le_trans h.fresh hle, hlt, hh⟩
  · exact ⟨news ++ news', by rw [hn', hn, List.append_assoc], by rw [List.filter_append, hl, hl']⟩
  · intro n
    rw [h'.hosts n, h.hosts n]

theorem of_none (h : Change none c c' loud) (own : Option Ticket) : Change own c c' loud :=
  ⟨h.fresh, fun v hv _ => h.kept v hv nofun, fun v task _ => h.newcomers v task nofun, h.events, h.hosts, h.sane⟩

theorem of_eq (hs : c.Sane) (hf : c.fresh ≤ c'.fresh) (ht : c'.tasks = c.tasks) (he : c'.events = c.events)
    (hh : c'.hosts = c.hosts) : Change own c c' [] := by
  refine ⟨hf, fun v _ _ => by rw [ht], fun v task _ hv => .inl (by rwa [ht] at hv), ?_, ?_, ?_⟩
  · exact ⟨[], by rw [he, List.append_nil], rfl⟩
  · intro n
    rw [hh]
  · intro n h hn
    rw [hh] at hn
    exact hs n h hn

end Change

namespace Works

variable {c c' c'' : Cluster} {loud loud' : List Event}

theorem trans (h : Works c c' loud) (h' : Works c' c'' loud') : Works c c'' (loud ++ loud') :=
  ⟨h.toChange.trans h'.toChange, h'.answers.trans h.answers⟩

theorem after (h : Works c c' []) (h' : Works c' c'' loud) : Works c c'' loud :=
  h.trans h'

theorem before (h : Works c c' loud) (h' : Works c' c'' []) : Works c c'' loud := by
  have both := h.trans h'
  rwa [List.append_nil] at both

theorem of_eq (hs : c.Sane) (hf : c.fresh ≤ c'.fresh) (ht : c'.tasks = c.tasks) (ha : c'.answers = c.answers)
    (he : c'.events = c.events) (hh : c'.hosts = c.hosts) : Works c c' [] :=
  ⟨.of_eq hs hf ht he hh, ha⟩

theorem refl (hs : c.Sane) : Works c c [] :=
  of_eq hs (Nat.le_refl _) rfl rfl rfl rfl

theorem foldl {β : Type} {step : Cluster → β → Cluster} {xs : List β} (hs : c.Sane)
    (hstep : ∀ c x, x ∈ xs → c.Sane → Works c (step c x) []) : Works c (xs.foldl step c) [] := by
  induction xs generalizing c with
  | nil => exact refl hs
  | cons x xs ih =>
    have first := hstep c x List.mem_cons_self hs
    exact first.after (ih first.sane fun c y hy => hstep c y (List.mem_cons_of_mem x hy))

theorem aside (hs : c.Sane) (h : Aside c c') : Works c c' [] :=
  of_eq hs (Nat.le_of_eq h.fresh.symm) h.tasks h.answers h.events h.hosts

theorem wakeAll (hs : c.Sane) (ts : List Ticket) : Works c (c.wakeAll ts) [] :=
  aside hs (.wakeAll c ts)

theorem wake (hs : c.Sane) (t : Ticket) : Works c (c.wake t) [] :=
  wakeAll hs [t]

theorem setTimer (hs : c.Sane) (t : Ticket) (alarm : Alarm) (due : Nat) : Works c (c.setTimer t alarm due) [] :=
  of_eq hs (Nat.le_refl _) rfl rfl rfl rfl

theorem cancel (hs : c.Sane) (t : Ticket) (alarm : Alarm) : Works c (c.cancel t alarm) [] :=
  of_eq hs (Nat.le_refl _) rfl rfl rfl rfl

theorem spawn (hs : c.Sane) {task : Task} (ht : task.Harmless) : Works c (c.spawn task).1 [] := by
  have tasks : ∀ v, (c.spawn task).1.tasks.get? v = if v = c.fresh then some task else c.tasks.get? v :=
    fun v => Table.get?_insert _ _ _ _
  refine ⟨⟨Nat.le_succ _, ?_, ?_, ⟨[], (List.append_nil _).symm, rfl⟩, fun _ => rfl, hs⟩, rfl⟩
  · intro v hv _
    rw [tasks, if_neg (Nat.ne_of_lt hv)]
  · intro v task' _ hv
    rw [tasks] at hv
    split at hv
    next e =>
      cases hv
      exact .inr ⟨Nat.le_of_eq e.symm, by rw [e]; exact Nat.lt_succ_self _, ht⟩
    next => exact .inl hv

theorem record (hs : c.Sane) (e : Event) : Works c (c.record e) ([e].filter Event.isLoud) :=
  ⟨⟨Nat.le_refl _, fun _ _ _ => rfl, fun _ _ _ hv => .inl hv, ⟨[e], rfl, rfl⟩, fun _ => rfl, hs⟩, rfl⟩

theorem setHost (hs : c.Sane) {n : NodeId} {h h' : Host} (hn : c.host? n = some h) (hh : h'.Sane n) :
    Works c (c.setHost n h') [] := by
  refine ⟨⟨Nat.le_refl _, fun _ _ _ => rfl, fun _ _ _ hv => .inl hv, ⟨[], (List.append_nil _).symm, rfl⟩, ?_, ?_⟩, rfl⟩
  · intro q
    show (c.hosts.insert n h').contains q = _
    rw [Table.contains_insert]
    by_cases hq : q = n
    · have hn : c.hosts.get? n = some h := hn
      simp [hq, Table.contains, hn]
    · simp [hq]
  · intro q x hq
    have hq : (c.hosts.insert n h').get? q = some x := hq
    rw [Table.get?_insert] at hq
    split at hq
    next e => cases hq; rw [e]; exact hh
    next => exact hs q x hq

end Works

section Managers

variable {c : Cluster}

theorem works_broadcast (hs : c.Sane) (n : NodeId) {r : Request String}
    (hr : Idle (r.encode .string).1 (r.encode .string).2) : Works c (c.broadcast n r) [] := by
  rcases c.broadcast_cases n r with e | ⟨targets, e⟩
  · rw [e]
    exact .refl hs
  · rw [e]
    exact .spawn hs hr

theorem idle_request {e : Effect} {r : Request String} (h : e.request? = some r) :
    Idle (r.encode .string).1 (r.encode .string).2 := by
  cases e with
  | announce tag node long free =>
    have hr : updateFreeRequest node long free = r := Option.some.inj h
    rw [← hr]
    unfold updateFreeRequest
    split
    next => exact Request.idle_of_ne_join rfl (by simp [Request.operation])
    next => exact Request.idle_of_ne_join rfl (by simp [Request.operation])
  | delta tag origin counter =>
    have hr : Request.delta origin counter = r := Option.some.inj h
    rw [← hr]
    exact Request.idle_of_ne_join rfl (by simp [Request.operation])
  | _ => cases h

theorem works_perform (hs : c.Sane) (n : NodeId) (e : Effect) :
    Works c (perform n c e) ([Event.effect n e].filter Event.isLoud) := by
  have recorded := Works.record hs (.effect n e)
  unfold perform
  dsimp only
  split
  next r hr => exact recorded.before (works_broadcast recorded.sane n (idle_request hr))
  next => exact recorded

theorem works_performAll (hs : c.Sane) (n : NodeId) (effects : List Effect) :
    Works c (effects.foldl (perform n) c) ((effects.map (Event.effect n)).filter Event.isLoud) := by
  induction effects generalizing c with
  | nil => exact .refl hs
  | cons e effects ih =>
    have first := works_perform hs n e
    have both := first.trans (ih first.sane)
    rwa [← List.filter_append] at both

theorem manager_sane (hs : c.Sane) {n : NodeId} {m : Manager} (hm : c.manager? n = some m) :
    ∃ h, c.host? n = some h ∧ h.manager = some m ∧ m.id = n ∧ m.outbox = [] := by
  obtain ⟨h, hh, hm⟩ := Option.bind_eq_some_iff.mp hm
  obtain ⟨m', hm', hid, hout⟩ := (hs n h hh).manager
  rw [hm] at hm'
  cases hm'
  exact ⟨h, hh, hm, hid, hout⟩

theorem works_manage {α : Type} (hs : c.Sane) {n : NodeId} {m : Manager} (hm : c.manager? n = some m)
    {act : Manager → Manager × α} (hid : (act m).1.id = m.id) :
    Works c (c.manage n act).1 (((act m).1.outbox.map (Event.effect n)).filter Event.isLoud) ∧
      (c.manage n act).2 = some (act m).2 := by
  obtain ⟨h, hh, hm, hn, _⟩ := manager_sane hs hm
  rw [manage_some hh hm]
  have sane := hs n h hh
  have set : Works c (c.setHost n { h with manager := some { (act m).1 with outbox := [] } }) [] :=
    .setHost hs hh ⟨sane.fits, ⟨_, rfl, hid.trans hn, rfl⟩, sane.book⟩
  exact ⟨set.after (works_performAll set.sane n _), rfl⟩

theorem loud_of_calm {n : NodeId} {effects : List Effect} (h : ∀ e ∈ effects, e.isCalm) :
    (effects.map (Event.effect n)).filter Event.isLoud = [] := by
  refine List.filter_eq_nil_iff.mpr fun ev hev => ?_
  obtain ⟨e, he, rfl⟩ := List.mem_map.mp hev
  simp [Event.isLoud, h e he]

theorem works_manage_murmur {α : Type} (hs : c.Sane) (n : NodeId) {act : Manager → Manager × α}
    (h : ∀ m, Murmurs m (act m).1) : Works c (c.manage n act).1 [] := by
  cases hm : c.manager? n with
  | none =>
    rw [manage_none hm]
    exact .refl hs
  | some m =>
    obtain ⟨_, _, _, _, hout⟩ := manager_sane hs hm
    obtain ⟨news, hn, calm⟩ := (h m).outbox
    have works := (works_manage hs hm (h m).id).1
    rw [hn, hout, List.nil_append, loud_of_calm calm] at works
    exact works

theorem works_tell (hs : c.Sane) (n : NodeId) {act : Manager → Manager} (h : ∀ m, Murmurs m (act m)) :
    Works c (c.tell n act) [] :=
  works_manage_murmur hs n h

end Managers

section Membership

variable {c : Cluster}

section Told

variable {I : Cluster → Prop} {n : NodeId} (told : ∀ c change, I c → I (report n c change))

include told

/-- A manager is told of one change after the other. What it keeps each time is kept when somebody comes. -/
theorem addMember_keeps {node : NodeId} {address : String} (booked : I (c.withBook n (·.add node address)).1) :
    I (c.addMember n node address) :=
  List.foldlRecOn _ _ booked fun c hc change _ => told c change hc

theorem removeMember_keeps {node : NodeId} (booked : I (c.withBook n (·.remove node)).1) : I (c.removeMember n node) :=
  List.foldlRecOn _ _ booked fun c hc change _ => told c change hc

theorem onView_keeps (asked : ∀ c node, node ≠ n → I c → I (c.spawn (.refresh n node)).1)
    {view : List (NodeId × String)} (booked : I (c.withBook n (·.onView view)).1) : I (c.onView n view) := by
  refine List.foldlRecOn _ _ booked fun c hc change _ => ?_
  have reported := told c change hc
  unfold reportView
  dsimp only
  split
  next =>
    split
    next => exact reported
    next other => exact asked _ _ other reported
  next => exact reported

end Told

theorem works_report (hs : c.Sane) (n : NodeId) (change : MembershipChange) : Works c (report n c change) [] := by
  cases change with
  | joined node => exact works_tell hs n fun m => Murmurs.hear m (.join node)
  | left node => exact works_tell hs n fun m => Murmurs.hear m (.leave node)

theorem works_withBook (hs : c.Sane) (n : NodeId)
    {f : AddressBook String → AddressBook String × List MembershipChange}
    (hf : ∀ b, b.Truthful → (f b).1.Truthful) : Works c (c.withBook n f).1 [] := by
  unfold withBook
  split
  next => exact .refl hs
  next h hh =>
    have sane := hs n h hh
    exact .setHost hs hh ⟨sane.fits, sane.manager, hf h.book sane.book⟩

theorem works_addMember (hs : c.Sane) (n node : NodeId) {address : String} (ha : address = node.text) :
    Works c (c.addMember n node address) [] := by
  have booked := works_withBook hs n (f := (·.add node address)) fun _ hb => hb.add ha
  exact booked.after (.foldl booked.sane fun _ change _ hs => works_report hs n change)

theorem works_removeMember (hs : c.Sane) (n node : NodeId) : Works c (c.removeMember n node) [] := by
  have booked := works_withBook hs n (f := (·.remove node)) fun _ hb => hb.remove node
  exact booked.after (.foldl booked.sane fun _ change _ hs => works_report hs n change)

theorem works_reportView (hs : c.Sane) (n : NodeId) (change : MembershipChange) :
    Works c (reportView n c change) [] := by
  have reported := works_report hs n change
  unfold reportView
  dsimp only
  split
  next =>
    split
    next => exact reported
    next => exact reported.after (.spawn reported.sane trivial)
  next => exact reported

theorem works_onView (hs : c.Sane) (n : NodeId) {view : List (NodeId × String)}
    (hv : ∀ e ∈ view, e.2 = e.1.text) : Works c (c.onView n view) [] := by
  have booked := works_withBook hs n (f := (·.onView view)) fun _ hb => hb.onView hv
  exact booked.after (.foldl booked.sane fun _ change _ hs => works_reportView hs n change)

theorem works_publishView (hs : c.Sane) : Works c c.publishView [] := by
  refine .foldl hs fun c name _ hs => works_onView hs _ ?_
  intro e he
  obtain ⟨name, _, rfl⟩ := List.mem_map.mp he
  rfl

theorem works_connect (hs : c.Sane) (n : NodeId) : Works c (c.connect n) [] := by
  have wired : Works c { c with net := c.net.connect n.text } [] := .of_eq hs (Nat.le_refl _) rfl rfl rfl rfl
  have viewed := wired.after (works_publishView wired.sane)
  have added := viewed.after (works_addMember viewed.sane n n rfl)
  unfold connect
  revert added
  dsimp only
  generalize addMember _ n n n.text = c₁
  intro added
  cases hh : c₁.host? n with
  | none =>
    have nobody : c₁.broadcast n (.join n n.text) = c₁ := by rw [broadcast, hh]
    rwa [nobody]
  | some h => exact added.after (works_broadcast added.sane n (Request.idle_join (added.sane n h hh).fits))

theorem works_post (hs : c.Sane) (sender : NodeId) (targets : List String) {op : UInt16} {body : List UInt8}
    (hi : Idle op body) : Works c (c.post sender targets op body) [] := by
  refine .foldl hs fun c target _ hs => ?_
  split
  next => exact .spawn hs hi
  next => exact .refl hs

theorem works_disconnect (hs : c.Sane) (n : NodeId) : Works c (c.disconnect n) [] := by
  unfold disconnect
  split
  next => exact .refl hs
  next h hh =>
    have posted : Works c (c.post n h.book.peerAddresses (Request.encode .string (.leave n)).1
        (Request.encode .string (.leave n)).2) [] :=
      works_post hs n _ (Request.idle_of_ne_join rfl (by simp [Request.operation]))
    revert posted
    dsimp only
    generalize c.post n h.book.peerAddresses _ _ = c₁
    intro posted
    have cleared : ∀ b : AddressBook String, b.Truthful → b.clear.Truthful :=
      fun b _ => AddressBook.truthful_start b.self
    split
    next =>
      have wired : Works c { c₁ with net := c₁.net.disconnect n.text } [] :=
        posted.after (.of_eq posted.sane (Nat.le_refl _) rfl rfl rfl rfl)
      have viewed := wired.after (works_publishView wired.sane)
      exact viewed.after (works_withBook viewed.sane n cleared)
    next => exact posted.after (works_withBook posted.sane n cleared)

end Membership

end Cluster

end Workshare
