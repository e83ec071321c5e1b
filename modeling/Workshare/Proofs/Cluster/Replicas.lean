import Mathlib.Data.Finset.Card
import Mathlib.Tactic.GCongr
import Mathlib.Tactic.Ring
import Workshare.Proofs.Cluster.Hosts
import Workshare.Proofs.Cluster.Lasting
import Workshare.Proofs.Cluster.Presence
import Workshare.Proofs.Group.Replication
import Workshare.Proofs.Manager.Reckoning

namespace Workshare

theorem AddressBook.count_peerAddresses {b : AddressBook String} {a : String} {S : Finset NodeId}
    (listed : b.Lists fun q x => x = a → q ∈ S) : b.peerAddresses.count a ≤ S.card := by
  have distinct : ((b.addresses.entries.filter (·.2 = a)).map (·.1)).Nodup := by
    refine List.Pairwise.map _ ?_ (b.addresses.sorted.filter _)
    rintro x y before same
    exact Key.irrefl _ (same ▸ before)
  have among : ((b.addresses.entries.filter (·.2 = a)).map (·.1)).toFinset ⊆ S := by
    intro q hq
    obtain ⟨⟨q', x⟩, he, rfl⟩ := List.mem_map.mp (List.mem_toFinset.mp hq)
    obtain ⟨he, hx⟩ := List.mem_filter.mp he
    exact listed q' x (Table.get?_eq_some_iff.mpr he) (of_decide_eq_true hx)
  have counted := Finset.card_le_card among
  rw [List.toFinset_card_of_nodup distinct, List.length_map, ← List.countP_eq_length_filter] at counted
  refine Nat.le_trans ?_ counted
  rw [Group.peerAddresses_eq, List.count_eq_countP, List.countP_map]
  exact (List.filter_sublist.countP_le).trans (Nat.le_of_eq (List.countP_congr fun e _ => by simp))

/-- How often what is in hand tells the host `o` of a step of `k` at `p`. -/
def Hand.bears (p o : NodeId) (k : Counter) : Hand → Int
  | .message h op body => if Group.carries .string p k o.text ⟨h.text, op, body⟩ then 1 else 0
  | .cast targets op body =>
    ((targets.map fun t => (⟨t, op, body⟩ : Letter String)).countP (Group.carries .string p k o.text) : Nat)
  | _ => 0

theorem Hand.bears_nonneg (p o : NodeId) (k : Counter) (x : Hand) : 0 ≤ x.bears p o k := by
  cases x with
  | message h op body =>
    show (0 : Int) ≤ if _ then 1 else 0
    split
    next => exact Int.one_nonneg
    next => exact Int.le_refl 0
  | cast targets op body => exact Int.natCast_nonneg _
  | _ => exact Int.le_refl 0

theorem Hand.bears_of {p o q : NodeId} {k : Counter} {x : Hand} (hx : x.Of q) : x.bears p o k = 0 := by
  cases x with
  | message h op body => exact hx.elim
  | cast targets op body => exact hx.elim
  | _ => rfl

/-- Only a delta of `p` that is for `o` bears anything. -/
theorem Hand.bears_of_unread {p o h : NodeId} {k : Counter} {op : UInt16} {body : List UInt8}
    (unread : h = o → Reads (·.notice? ≠ some (.delta p k)) op body) : (Hand.message h op body).bears p o k = 0 := by
  refine if_neg fun carries => ?_
  obtain ⟨target, told⟩ := (Bool.and_eq_true _ _).mp carries
  have target : h = o := congrArg NodeId.mk (of_decide_eq_true target)
  obtain ⟨r, read, notice⟩ := Group.decode_of_notice? .string (of_decide_eq_true told)
  exact unread target r read notice

/-- A message that tells `o` of a step of `p` bears one. -/
theorem Hand.bears_of_read {p o : NodeId} {k : Counter} {op : UInt16} {body : List UInt8} {r : Request String}
    (hd : Request.decode .string op body = .ok r) (told : r.notice? = some (.delta p k)) :
    (Hand.message o op body).bears p o k = 1 := by
  refine if_pos ?_
  have notice : Group.notice? .string (⟨o.text, op, body⟩ : Letter String) = some (.delta p k) :=
    (Group.notice?_of_decode .string hd).trans told
  unfold Group.carries
  rw [notice]
  simp

theorem reads_mute {r : Request String} (mute : r.notice? = none) :
    Reads (·.notice? = none) (r.encode .string).1 (r.encode .string).2 :=
  Cluster.calls_encode (A := .ofHears fun _ _ => True) mute

theorem Hand.bears_cons (p o : NodeId) (k : Counter) (target : String) (targets : List String) (op : UInt16)
    (body : List UInt8) : (Hand.cast (target :: targets) op body).bears p o k =
      (Hand.cast targets op body).bears p o k + (Hand.message ⟨target⟩ op body).bears p o k := by
  show ((List.countP _ (_ :: _) : Nat) : Int) = ((List.countP _ _ : Nat) : Int) + if _ then 1 else 0
  rw [List.countP_cons]
  push_cast
  rfl

theorem Hand.bears_cast_mute {p o : NodeId} {k : Counter} {op : UInt16} {body : List UInt8} (targets : List String)
    (mute : Reads (·.notice? = none) op body) : (Hand.cast targets op body).bears p o k = 0 := by
  induction targets with
  | nil => rfl
  | cons target targets ih =>
    have unread : (Hand.message ⟨target⟩ op body).bears p o k = 0 := by
      refine Hand.bears_of_unread fun _ r hd told => ?_
      rw [mute r hd] at told
      cases told
    rw [Hand.bears_cons, ih, unread]
    rfl

namespace Cluster

def tally (c : Cluster) (p : NodeId) (k : Counter) : Nat :=
  (c.manager? p).elim 0 (·.statistics.own.get k)

def copy (c : Cluster) (o p : NodeId) (k : Counter) : Nat :=
  (c.manager? o).elim 0 (·.statistics.heard p k)

variable {p o q : NodeId} {k : Counter} {S : Finset NodeId} {own : Option Ticket} {c c' : Cluster} {x y : Hand}
  {h : Host} {m : Manager} {targets : List String} {op : UInt16} {body : List UInt8}

theorem load_broadcast (owner : ∀ t, own = some t → t < c.fresh) (hq : c.host? q = some h) (r : Request String) :
    (c.broadcast q r).load (Hand.bears p o k) own = c.load (Hand.bears p o k) own +
      ((h.book.letters .string r).countP (Group.carries .string p k o.text) : Nat) := by
  unfold broadcast
  simp only [hq]
  split
  next none =>
    have none : h.book.letters .string r = [] := by
      rw [Group.letters_eq, List.isEmpty_iff.mp none]
      rfl
    rw [none]
    exact (Int.add_zero _).symm
  next => exact load_spawn owner _

theorem load_perform (owner : ∀ t, own = some t → t < c.fresh) (hq : c.host? q = some h) (e : Effect) :
    (perform q c e).load (Hand.bears p o k) own = c.load (Hand.bears p o k) own +
      ((Group.mail .string h.book e).countP (Group.carries .string p k o.text) : Nat) := by
  have recorded : (c.record (.effect q e)).load (Hand.bears p o k) own = c.load (Hand.bears p o k) own :=
    load_congr (fun _ _ _ => rfl) rfl
  unfold perform Group.mail
  cases e.request? with
  | some r =>
    have sent := load_broadcast (c := c.record (.effect q e)) (p := p) (o := o) (k := k) owner hq r
    exact sent.trans (congrArg (· + _) recorded)
  | none => exact recorded.trans (Int.add_zero _).symm

theorem load_performAll (owner : ∀ t, own = some t → t < c.fresh) (hq : c.host? q = some h) (effects : List Effect) :
    (effects.foldl (perform q) c).load (Hand.bears p o k) own = c.load (Hand.bears p o k) own +
      ((effects.flatMap (Group.mail .string h.book)).countP (Group.carries .string p k o.text) : Nat) := by
  induction effects generalizing c with
  | nil => exact (Int.add_zero _).symm
  | cons e effects ih =>
    have grows : Grows (fun _ => True) c (perform q c e) := Grows.performAll (fun _ _ _ _ => trivial) q [e]
    have same : (perform q c e).host? q = some h := (host?_congr (hosts_performAll q [e] c) q).trans hq
    rw [List.foldl_cons, ih (fun t ht => Nat.lt_of_lt_of_le (owner t ht) grows.fresh) same, load_perform owner hq,
      List.flatMap_cons, List.countP_append]
    push_cast
    omega

/-- Whatever is sent, on its way or known at `o` of the steps of `k` that `p` has counted comes from those steps, each
of which is sent at most once for each name in `S`. -/
structure Tracks (p o : NodeId) (k : Counter) (S : Finset NodeId) (own : Option Ticket) (c : Cluster) (x : Hand) :
    Prop where
  young : ∀ t, own = some t → t < c.fresh
  fits : ∀ q, (c.executor? q).isSome → Fits q.text
  managers : ∀ q m, c.manager? q = some m → m.id = q ∧ m.outbox = []
  listed : ∀ b, c.book? p = some b → b.Lists fun q a => a = o.text → q ∈ S
  bound : (c.copy o p k : Int) + c.load (Hand.bears p o k) own + x.bears p o k ≤ (S.card * c.tally p k : Nat)

theorem tally_congr (same : c'.manager? p = c.manager? p) : c'.tally p k = c.tally p k := by
  unfold tally
  rw [same]

theorem copy_congr (same : c'.manager? o = c.manager? o) : c'.copy o p k = c.copy o p k := by
  unfold copy
  rw [same]

theorem tally_of (hm : c.manager? p = some m) : c.tally p k = m.statistics.own.get k := by
  unfold tally
  rw [hm]
  rfl

theorem copy_of (hm : c.manager? o = some m) : c.copy o p k = m.statistics.heard p k := by
  unfold copy
  rw [hm]
  rfl

namespace Tracks

theorem still (h : Tracks p o k S own c x) {own' : Option Ticket} (young : ∀ t, own' = some t → t < c'.fresh)
    (executor : ∀ q, (c'.executor? q).isSome = (c.executor? q).isSome)
    (manager : ∀ q, c'.manager? q = c.manager? q)
    (listed : ∀ b, c'.book? p = some b → b.Lists fun q a => a = o.text → q ∈ S)
    (load : c'.load (Hand.bears p o k) own' + y.bears p o k ≤ c.load (Hand.bears p o k) own + x.bears p o k) :
    Tracks p o k S own' c' y := by
  refine ⟨young, ?_, ?_, listed, ?_⟩
  · intro q hq
    exact h.fits q (executor q ▸ hq)
  · intro q m hm
    exact h.managers q m (manager q ▸ hm)
  · have bound := h.bound
    rw [copy_congr (manager o), tally_congr (manager p)]
    omega

/-- What a manager has put in its outbox goes to everybody in the book of its host. -/
theorem load_tell (h : Tracks p o k S own c x) {host : Host} (hq : c.host? q = some host)
    (attached : host.manager = some m) {act : Manager → Manager} {steps : List Counter}
    (deltas : (act m).outbox.filterMap Effect.delta? = steps.map (q, ·)) :
    (c.tell q act).load (Hand.bears p o k) own = c.load (Hand.bears p o k) own +
      ((if p = q then steps.count k * host.book.peerAddresses.count o.text else 0 : Nat) : Int) := by
  have there : (c.setHost q { host with manager := some (act m).drain.2 }).host? q =
      some { host with manager := some (act m).drain.2 } := (host?_setHost _ q).trans (if_pos rfl)
  have sent := load_performAll (p := p) (o := o) (k := k)
    (c := c.setHost q { host with manager := some (act m).drain.2 }) h.young there (act m).drain.1
  have fits : Fits q.text := h.fits q (by unfold Cluster.executor?; rw [hq]; rfl)
  have mails := Group.countP_mails .string host.book fits (act m).drain.1 deltas p k o.text
  rw [tell_eq hq attached, sent, mails]
  rfl

/-- Each step that is told of was counted before, and under each name of the observer it is sent once. -/
theorem allowance_tell (h : Tracks p o k S own c x) {host : Host} (hq : c.host? q = some host)
    (hm : c.manager? q = some m) {act : Manager → Manager} {steps : List Counter}
    (counted : m.statistics.own.get k + steps.count k ≤ (act m).statistics.own.get k) :
    S.card * c.tally p k + (if p = q then steps.count k * host.book.peerAddresses.count o.text else 0) ≤
      S.card * (c.tell q act).tally p k := by
  split
  next here =>
    subst here
    rw [tally_of (manager?_tell hm act), tally_of hm]
    have each : host.book.peerAddresses.count o.text ≤ S.card := by
      refine AddressBook.count_peerAddresses (h.listed host.book ?_)
      unfold book?
      rw [hq]
      rfl
    calc S.card * m.statistics.own.get k + steps.count k * host.book.peerAddresses.count o.text
        ≤ S.card * m.statistics.own.get k + steps.count k * S.card := by gcongr
      _ = S.card * (m.statistics.own.get k + steps.count k) := by ring
      _ ≤ S.card * (act m).statistics.own.get k := Nat.mul_le_mul_left _ counted
  next other => rw [tally_congr (manager?_tell_of_ne (Ne.symm other) act)]; exact Nat.le_refl _

/-- A manager acts. It tells the others of no more steps than it counts, and what its own host gets to know of `p` it
takes from what was in hand. -/
theorem tell (h : Tracks p o k S own c x) {act : Manager → Manager}
    (reports : ∀ m, c.manager? q = some m → m.Reports (act m)) (less : y.bears p o k ≤ x.bears p o k)
    (heard : ∀ m, c.manager? q = some m → q = o →
      ((act m).statistics.heard p k : Int) + y.bears p o k ≤ m.statistics.heard p k + x.bears p o k) :
    Tracks p o k S own (c.tell q act) y := by
  cases hm : c.manager? q with
  | none =>
    rw [tell_absent hm]
    exact h.still h.young (fun _ => rfl) (fun _ => rfl) h.listed (by omega)
  | some m =>
    obtain ⟨host, hq, attached⟩ := host_of_manager hm
    obtain ⟨id, quiet⟩ := h.managers q m hm
    have told := reports m hm
    obtain ⟨news, steps, hn, hd, counted⟩ := told.told
    rw [quiet, List.nil_append] at hn
    rw [id, ← hn] at hd
    have load := h.load_tell hq attached hd
    have sent := h.allowance_tell hq hm (counted k)
    have after := manager?_tell hm act
    have known : ((c.tell q act).copy o p k : Int) + y.bears p o k ≤ c.copy o p k + x.bears p o k := by
      by_cases here : q = o
      · subst here
        rw [copy_of after, copy_of hm]
        exact heard m hm rfl
      · rw [copy_congr (manager?_tell_of_ne here act)]
        omega
    have grows : Grows (fun _ => True) c (c.tell q act) := .tell (fun _ _ _ _ => trivial) q act
    refine ⟨fun t ht => Nat.lt_of_lt_of_le (h.young t ht) grows.fresh, ?_, ?_, ?_, ?_⟩
    · intro q' hq'
      rw [executor?_tell] at hq'
      exact h.fits q' hq'
    · intro q' m' hm'
      by_cases here : q = q'
      · subst here
        rw [after] at hm'
        cases hm'
        exact ⟨told.id.trans id, rfl⟩
      · rw [manager?_tell_of_ne here] at hm'
        exact h.managers q' m' hm'
    · rw [book?_tell]
      exact h.listed
    · have bound := h.bound
      rw [load]
      omega

/-- A manager acts that tells of no more steps than it counts, and knows no more of the others. -/
theorem reckons (h : Tracks p o k S own c x) {act : Manager → Manager}
    (reckons : ∀ m, c.manager? q = some m → m.Reckons (act m)) (less : y.bears p o k ≤ x.bears p o k) :
    Tracks p o k S own (c.tell q act) y := by
  refine h.tell (fun m hm => (reckons m hm).toReports) less fun m hm _ => ?_
  have heard := (reckons m hm).heard p k
  omega

theorem report (h : Tracks p o k S own c x) (q : NodeId) (change : MembershipChange) :
    Tracks p o k S own (report q c change) x := by
  cases change with
  | joined r => exact h.reckons (fun m _ => .move m (x := .hear (.join r)) fun _ _ => nofun) (Int.le_refl _)
  | left r => exact h.reckons (fun m _ => .move m (x := .hear (.leave r)) fun _ _ => nofun) (Int.le_refl _)

/-- News come to the book of a host, on terms that are known of `p`. -/
theorem withBook (h : Tracks p o k S own c x) (q : NodeId)
    {f : AddressBook String → AddressBook String × List MembershipChange}
    (listed : q = p → ∀ b : AddressBook String, b.Lists (fun q a => a = o.text → q ∈ S) →
      (f b).1.Lists fun q a => a = o.text → q ∈ S) : Tracks p o k S own (c.withBook q f).1 x := by
  cases hq : c.host? q with
  | none =>
    have nobody : c.withBook q f = (c, []) := by
      unfold Cluster.withBook
      rw [hq]
    rw [nobody]
    exact h
  | some host =>
    have told := withBook_eq hq (f := f)
    refine h.still ?_ (fun q' => by rw [executor?_withBook]) (manager?_withBook q f) ?_ ?_
    · rw [told]
      exact h.young
    · rw [told]
      intro b hb
      unfold book? at hb
      rw [host?_setHost] at hb
      split at hb
      next here =>
        cases hb
        refine listed here.symm _ (h.listed _ ?_)
        unfold book?
        rw [here, hq]
        rfl
      next => exact h.listed b hb
    · rw [told]
      have same : (c.setHost q { host with book := (f host.book).1 }).load (Hand.bears p o k) own =
          c.load (Hand.bears p o k) own := load_congr (fun _ _ _ => rfl) rfl
      rw [same]

theorem addMember (h : Tracks p o k S own c x) (q r : NodeId) (a : String)
    (named : q = p → a = o.text → r ∈ S) : Tracks p o k S own (c.addMember q r a) x :=
  addMember_keeps (I := (Tracks p o k S own · x)) (fun _ change h => h.report q change)
    (h.withBook q fun here _ listed => listed.add (named here))

theorem removeMember (h : Tracks p o k S own c x) (q r : NodeId) : Tracks p o k S own (c.removeMember q r) x :=
  removeMember_keeps (I := (Tracks p o k S own · x)) (fun _ change h => h.report q change)
    (h.withBook q fun _ _ listed => listed.remove r)

theorem spawn (h : Tracks p o k S own c x) {task : Task} (light : task.hand.bears p o k = 0) :
    Tracks p o k S own (c.spawn task).1 x := by
  refine h.still (fun t ht => Nat.lt_succ_of_lt (h.young t ht)) (fun _ => rfl) (fun _ => rfl) h.listed ?_
  rw [load_spawn h.young, light]
  omega

theorem onView (h : Tracks p o k S own c x) (q : NodeId) {members : List (NodeId × String)}
    (named : q = p → ∀ r, (r, o.text) ∈ members → r ∈ S) : Tracks p o k S own (c.onView q members) x := by
  refine onView_keeps (I := (Tracks p o k S own · x)) (fun _ change h => h.report q change)
    (fun _ _ _ h => h.spawn rfl) (h.withBook q fun here b listed => ?_)
  refine listed.onView fun e he same => named here e.1 ?_
  rw [← same]
  exact he

theorem post (h : Tracks p o k S own c (.cast targets op body)) (sender : NodeId) :
    Tracks p o k S own (c.post sender targets op body) .empty := by
  unfold Cluster.post
  induction targets generalizing c with
  | nil => exact h.still h.young (fun _ => rfl) (fun _ => rfl) h.listed (by exact Int.le_refl _)
  | cons target targets ih =>
    have one := Hand.bears_cons p o k target targets op body
    have some := Hand.bears_nonneg p o k (.message ⟨target⟩ op body)
    rw [List.foldl_cons]
    refine ih ?_
    split
    next =>
      refine h.still (fun t ht => Nat.lt_succ_of_lt (h.young t ht)) (fun _ => rfl) (fun _ => rfl) h.listed ?_
      rw [load_spawn h.young]
      show _ + (Hand.message ⟨target⟩ op body).bears p o k + _ ≤ _
      omega
    next => exact h.still h.young (fun _ => rfl) (fun _ => rfl) h.listed (by omega)

theorem same (h : Tracks p o k S own c x) (hosts : c'.hosts = c.hosts)
    (grows : Grows (fun task => task.hand.bears p o k = 0) c c') (dated : c.Dated)
    (less : y.bears p o k ≤ x.bears p o k) : Tracks p o k S own c' y := by
  refine h.still (fun t ht => Nat.lt_of_lt_of_le (h.young t ht) grows.fresh) (fun q => by rw [executor?_congr hosts])
    (manager?_congr hosts) ?_ ?_
  · rw [book?_congr hosts]
    exact h.listed
  · rw [grows.load dated h.young fun _ light => light]
    omega

theorem hands (h : Tracks p o k S own c x) (less : y.bears p o k ≤ x.bears p o k) : Tracks p o k S own c y :=
  h.still h.young (fun _ => rfl) (fun _ => rfl) h.listed (by omega)

theorem lane (h : Tracks p o k S own c x) {α : Type} {long : Bool} {f : Lane → Lane × α} {a : α}
    (hc : c.withLane q long f = (c', some a)) (less : y.bears p o k ≤ x.bears p o k) : Tracks p o k S own c' y := by
  have rest := withLane_rest hc
  obtain ⟨host, pool, _, _, _, rfl⟩ := withLane_some hc
  refine h.still h.young (fun q => (rest q).1) (fun q => (rest q).2.1) ?_ ?_
  · rw [(rest p).2.2]
    exact h.listed
  · have weight : (c.setHost q { host with executor := .pool (pool.setLane long (f (pool.lane long)).1) }).load
        (Hand.bears p o k) own = c.load (Hand.bears p o k) own := load_congr (fun _ _ _ => rfl) rfl
    omega

theorem broadcast (h : Tracks p o k S own c x) {r : Request String} (mute : r.notice? = none) :
    Tracks p o k S own (c.broadcast q r) x := by
  cases hq : c.host? q with
  | none =>
    have nobody : c.broadcast q r = c := by
      unfold Cluster.broadcast
      rw [hq]
    rw [nobody]
    exact h
  | some host =>
    have grows : Grows (fun _ => True) c (c.broadcast q r) := .broadcast (fun _ _ _ _ => trivial) q r
    have hosts := hosts_broadcast c q r
    refine h.still (fun t ht => Nat.lt_of_lt_of_le (h.young t ht) grows.fresh) (fun q => by rw [executor?_congr hosts])
      (manager?_congr hosts) ?_ ?_
    · rw [book?_congr hosts]
      exact h.listed
    · have letters : (((host.book.letters .string r).countP (Group.carries .string p k o.text) : Nat) : Int) = 0 :=
        Hand.bears_cast_mute host.book.peerAddresses (reads_mute mute)
      rw [load_broadcast h.young hq, letters]
      omega

/-- What a message tells a host is in hand no more. -/
theorem hear (h : Tracks p o k S own c (.message q op body)) {Q : Executor → Prop} (agrees : c.Agrees Q)
    {r : Request String} {notice : Notice} (hd : Request.decode .string op body = .ok r)
    (told : r.notice? = some notice) : Tracks p o k S own (c.tell q (·.hear notice)) .empty := by
  have less := Hand.bears_nonneg p o k (.message q op body)
  by_cases delta : ∃ origin d, notice = .delta origin d
  · obtain ⟨origin, d, rfl⟩ := delta
    refine h.tell (fun m _ => .of_tells (.hear m (.delta origin d))) less fun m hm here => ?_
    subst here
    have heard := Manager.Reckons.heard_delta (agrees.sound hm) origin p d k
    show ((m.delta origin d).statistics.heard p k : Int) + 0 ≤ _
    split at heard
    next mine =>
      obtain ⟨rfl, rfl⟩ := mine
      rw [Hand.bears_of_read hd told]
      omega
    next => omega
  · exact h.reckons (fun m _ => .hear m fun origin d e => delta ⟨origin, d, e⟩) less

end Tracks

end Cluster

def Occurrence.starts? : Occurrence → Option NodeId
  | .deed (.start n) _ => some n
  | _ => none

/-- The transport of node `p` is told of the address of `o` only under these names, and nobody but `p` tells `o` of what
`p` has counted. -/
def Terms.naming (p o : NodeId) (among : NodeId → Prop) (self : among o) : Terms where
  served q r := q = p → ∀ x, r = .join x o.text → among x
  views q members := q = p → ∀ x, (x, o.text) ∈ members → among x
  audience := .ofHears fun _ _ => True
  letters q r := q = o → ∀ k, r ≠ .delta p k
  moves q x := q = o → ∀ k, x ≠ .hear (.delta p k)
  executors _ _ _ := True
  entering q _ x joined := by
    obtain ⟨rfl, same⟩ := Request.join.inj joined
    have same : q = o := congrArg NodeId.mk same
    exact same ▸ self
  viewing _ names _ x viewed := by
    obtain ⟨name, _, entry⟩ := List.mem_map.mp viewed
    have same : o = x := (congrArg NodeId.mk (Prod.ext_iff.mp entry).2).symm.trans (Prod.ext_iff.mp entry).1
    exact same ▸ self
  asking _ _ _ _ _ := trivial
  dialling _ := ⟨fun _ _ => nofun, fun _ _ => nofun⟩
  keeping _ _ := trivial

namespace Cluster

variable {p o : NodeId} {k : Counter} {S : Finset NodeId} {c c' : Cluster} {x y : Hand} {t : Ticket}

namespace Tracks

variable {self : o ∈ S}

theorem drift (h : Tracks p o k S none c .empty) (within : c.Within (.naming p o (· ∈ S) self))
    (drift : Drift (.naming p o (· ∈ S) self) c c') : Tracks p o k S none c' .empty := by
  cases drift with
  | aside same => exact h.same same.hosts (.aside same) within.dated (Int.le_refl _)
  | spawn _ _ empty =>
    refine h.spawn ?_
    rw [empty]
    rfl
  | network net => exact h.same rfl (.of_eq rfl rfl rfl) within.dated (Int.le_refl _)
  | view named => exact h.onView _ named
  | enter q =>
    refine h.addMember q q q.text fun _ same => ?_
    have same : q = o := congrArg NodeId.mk same
    exact same ▸ self
  | broadcast q mute => exact h.broadcast mute
  | post q targets mute =>
    have mine := h.hands (y := .cast targets _ _) (Int.le_of_eq (Hand.bears_cast_mute targets (reads_mute mute)))
    exact mine.post q
  | @move q x allowed _ _ =>
    by_cases told : ∃ origin d, x = .hear (.delta origin d)
    · obtain ⟨origin, d, rfl⟩ := told
      refine h.tell (fun m _ => .of_tells (.hear m (.delta origin d))) (Int.le_refl _) fun m hm here => ?_
      -- on these terms no such count comes in but by a message
      have foreign : ¬ (origin = p ∧ d = k) := fun e => allowed here d (by rw [e.1])
      have heard := Manager.Reckons.heard_delta (within.agrees.sound hm) origin p d k
      rw [if_neg foreign] at heard
      exact Int.add_le_add_right (Int.ofNat_le.mpr heard) _
    · exact h.reckons (fun m _ => .move m fun origin d e => told ⟨origin, d, e⟩) (Int.le_refl _)
  | announce q =>
    exact h.reckons (fun m _ => Manager.Reckons.move m (x := .announceAll _) (fun _ _ => nofun)) (Int.le_refl _)
  | depart q =>
    have cleared := h.withBook q (f := fun b => (b.clear, [])) fun _ b _ => AddressBook.lists_start b.self
    exact cleared.reckons (fun m _ => .move m (x := .disband) fun _ _ => nofun) (Int.le_refl _)
  | @alter q f manager book _ =>
    refine h.still nofun (isSome_alter q f) (manager?_alter manager) ?_ ?_
    · rw [book?_alter book]
      exact h.listed
    · have weight : (c.alter q f).load (Hand.bears p o k) none = c.load (Hand.bears p o k) none := by
        unfold Cluster.alter
        split
        next => exact load_congr (fun _ _ _ => rfl) rfl
        next => rfl
      rw [weight]

theorem pace (h : Tracks p o k S (some t) c x) (within : c.Within (.naming p o (· ∈ S) self))
    (pace : Pace (Terms.naming p o (· ∈ S) self).traffic (Terms.naming p o (· ∈ S) self).audience t (c, x) (c', y)) :
    Tracks p o k S (some t) c' y := by
  have dated := within.dated
  cases pace with
  | aside same => exact h.same same.hosts (.aside same) dated (Int.le_refl _)
  | note _ => exact h.same rfl (.of_eq rfl rfl rfl) dated (Int.le_refl _)
  | spawn _ _ empty =>
    refine h.spawn ?_
    rw [empty]
    rfl
  | ask hc => exact h.lane hc (Int.le_of_eq (by split <;> rfl))
  | collect hc => exact h.lane hc (Int.le_of_eq (by split <;> rfl))
  | wait => exact h.hands (Int.le_refl _)
  | quit hc => exact h.lane hc (Int.le_refl _)
  | hire q work waiter =>
    have hired : Tracks p o k S (some t) (c.spawn (.runner q work waiter none)).1 (.taken q work.longRunning) :=
      h.spawn rfl
    exact hired.hands (Int.le_refl _)
  | giveBack hc => exact h.lane hc (Int.le_refl _)
  | drop q work => exact h.same rfl (.of_eq rfl rfl rfl) dated (Int.le_refl _)
  | vain _ hx hy =>
    refine h.hands ?_
    rw [Hand.bears_of hx, Hand.bears_of hy]
  | handOver q mode work => exact h.reckons (fun m _ => Manager.Reckons.move m (x := .submitHere _ mode work) fun _ _ => nofun) (Int.le_refl _)
  | keep hc _ =>
    rw [manage_acted hc]
    exact h.reckons (fun m _ => Manager.Reckons.move m (x := .submit _ _ _) fun _ _ => nofun) (Int.le_refl _)
  | pass hc _ =>
    rw [manage_acted hc]
    exact h.reckons (fun m _ => Manager.Reckons.move m (x := .submit _ _ _) fun _ _ => nofun) (Int.le_refl _)
  | reject q mode reason => exact h.reckons (fun m _ => Manager.Reckons.record m _) (Int.le_refl _)
  | report q mode _ => exact h.reckons (fun m _ => Manager.Reckons.record m _) (Int.le_refl _)
  | complete q long success =>
    exact h.reckons (fun m _ => Manager.Reckons.move m (x := .complete _ long success) fun _ _ => nofun) (Int.le_refl _)
  | scripted _ plain _ => exact h.reckons (fun m _ => Manager.Reckons.move m fun _ _ e => by rw [e] at plain; cases plain) (Int.le_refl _)
  | write q mute =>
    refine h.hands (Int.le_of_eq (Hand.bears_of_unread fun _ r hd told => ?_))
    have silent : r.notice? = none := mute r hd
    rw [silent] at told
    cases told
  | post sender targets _ => exact h.post sender
  | discard => exact h.hands (Hand.bears_nonneg _ _ _ _)
  | look q => exact h.reckons (fun m _ => .refl m) (Int.le_refl _)
  | learn _ => exact h.reckons (fun m _ => .move m (x := .hear (.free _ _ _)) fun _ _ => nofun) (Int.le_refl _)
  | hear hd told _ => exact h.hear within.agrees hd told
  | join hd served =>
    exact (h.addMember _ _ _ fun here same => served here _ (by rw [same])).hands (Hand.bears_nonneg _ _ _ _)
  | leave hd _ => exact (h.removeMember _ _).hands (Hand.bears_nonneg _ _ _ _)

theorem start {hosts : List (NodeId × Host)} (new : ∀ e ∈ hosts, e.2.New e.1) (fits : ∀ e ∈ hosts, Fits e.1.text)
    (other : p ≠ o) : Tracks p o k S none (Cluster.start hosts) .empty := by
  have among : ∀ q h, (Cluster.start hosts).host? q = some h → (q, h) ∈ hosts := fun _ _ => hosts_start
  refine ⟨nofun, ?_, ?_, ?_, ?_⟩
  · intro q hq
    obtain ⟨executor, he⟩ := Option.isSome_iff_exists.mp hq
    obtain ⟨h, hh, _⟩ := Option.map_eq_some_iff.mp he
    exact fits (q, h) (among q h hh)
  · intro q m hm
    obtain ⟨h, hh, attached⟩ := host_of_manager hm
    obtain ⟨m', hm', agree⟩ := (new (q, h) (among q h hh)).agrees
    rw [attached] at hm'
    cases hm'
    exact ⟨agree.id, agree.quiet⟩
  · intro b hb
    obtain ⟨h, hh, rfl⟩ := Option.map_eq_some_iff.mp hb
    have book : h.book = .start p := (new (p, h) (among p h hh)).1
    rw [book]
    exact AddressBook.lists_start p
  · -- nobody is a member but the node itself, so nobody else has been counted for
    have unknown : (Cluster.start hosts).copy o p k = 0 := by
      unfold copy
      cases hm : (Cluster.start hosts).manager? o with
      | none => rfl
      | some m =>
        obtain ⟨h, hh, attached⟩ := host_of_manager hm
        have fresh := new (o, h) (among o h hh)
        obtain ⟨m', hm', agree⟩ := fresh.agrees
        rw [attached] at hm'
        cases hm'
        have stranger : m.members.contains p = false := by
          rw [agree.members p, fresh.1]
          simp [other, AddressBook.start]
        have absent : m.statistics.peers.get? p = none := by
          cases known : m.statistics.peers.get? p with
          | none => rfl
          | some tally =>
            have member := (agree.sound.counted p (by unfold Table.contains; rw [known]; rfl)).1
            rw [stranger] at member
            cases member
        show m.statistics.heard p k = 0
        unfold Statistics.heard
        rw [absent, Option.getD_none, Tally.get_zero]
    rw [unknown]
    exact Int.natCast_nonneg _

end Tracks

theorem tracks_lasting (p o : NodeId) (k : Counter) (S : Finset NodeId) (self : o ∈ S) :
    Lasting (.naming p o (· ∈ S) self) (Tracks p o k S) where
  lift := by
    intro c t task within h ht
    refine h.still ?_ (fun _ => rfl) (fun _ => rfl) h.listed ?_
    · rintro _ ⟨⟩
      exact within.dated.young ht
    · have apart := load_none (f := Hand.bears p o k) (within.dated.young ht)
      rw [ht] at apart
      have same : (some task).elim 0 (fun task => task.hand.bears p o k) = task.hand.bears p o k := rfl
      have none : Hand.empty.bears p o k = 0 := rfl
      omega
  call := by
    intro c x within h hand
    refine h.still ?_ (fun _ => rfl) (fun _ => rfl) h.listed ?_
    · rintro _ ⟨⟩
      exact Nat.lt_succ_self c.fresh
    · rw [load_called]
      have light : x.bears p o k = 0 := by
        rcases hand with rfl | ⟨q, op, body, rfl, foreign⟩
        · rfl
        · refine Hand.bears_of_unread fun here r hd told => ?_
          cases r <;> first | (cases told; exact foreign _ hd here k rfl) | cases told
      rw [light]
      exact Int.le_refl _
  pace within _ h pace := h.pace within pace
  park := by
    intro c t left within young h
    refine h.still nofun (fun _ => rfl) (fun _ => rfl) h.listed ?_
    rw [load_park young]
    exact Int.le_of_eq (Int.add_zero _)
  finish := by
    intro c t said within young h
    refine h.still nofun (fun _ => rfl) (fun _ => rfl) h.listed ?_
    rw [load_finish young]
  drift within h drift := h.drift within drift

/-- Copies of a tally are never larger than the tally itself, times the names that the address of the observer has at
the origin. Messages may be lost, late or overtaken, and anybody may come and go under any name, and work may be done
all along; only the deltas of `p` have to come from `p`. -/
theorem copies_bounded {hosts : List (NodeId × Host)} (new : ∀ e ∈ hosts, e.2.New e.1)
    (fits : ∀ e ∈ hosts, Fits e.1.text) {p o : NodeId} (other : p ≠ o) {S : Finset NodeId} (self : o ∈ S)
    {course : List Occurrence} (permitted : (Terms.naming p o (· ∈ S) self).Course (start hosts) course) (k : Counter)
    {m m' : Manager} (origin : (course.foldl undergo (start hosts)).manager? p = some m)
    (observer : (course.foldl undergo (start hosts)).manager? o = some m') :
    (m'.statistics.known p).get k ≤ S.card * m.statistics.own.get k := by
  have started : Tracks p o k S none (start hosts) .empty := .start new fits other
  obtain ⟨within, tracks⟩ := (tracks_lasting p o k S self).course (.start new) started permitted
  generalize course.foldl undergo (start hosts) = c at origin observer within tracks
  have bound := tracks.bound
  have positive : 0 ≤ c.load (Hand.bears p o k) none := load_nonneg (Hand.bears_nonneg p o k)
  have none : Hand.empty.bears p o k = 0 := rfl
  have known : (m'.statistics.known p).get k = c.copy o p k := by
    have foreign : p ≠ m'.statistics.node := by
      rw [(within.agrees.sound observer).self, (tracks.managers o m' observer).1]
      exact other
    rw [copy_of observer]
    unfold Statistics.known Statistics.get?
    rw [if_neg foreign]
    rfl
  rw [known, ← tally_of origin]
  omega

theorem naming_go {among : NodeId → Prop} {self : among o} {inner : (Deed.go t).isInner}
    (elsewhere : ((c.tasks.get? t).bind (·.served? c.now)).map (·.1) ≠ some p) :
    (Terms.naming p o among self).Permits c (.deed (.go t) inner) := by
  intro task ht q op body served
  have there : q ≠ p := by
    rintro rfl
    rw [ht] at elsewhere
    exact elsewhere (congrArg (Option.map Prod.fst) served)
  exact ⟨fun _ _ _ here => absurd here there, fun _ _ _ _ => trivial⟩

/-- The first host is told of the second one under a second name, and counts a work. -/
def secondName : List Occurrence :=
  [starting ⟨"a"⟩, starting ⟨"b"⟩, arrival ⟨"a"⟩ (.join ⟨"b2"⟩ "b"),
    .deed (.begin (.submit ⟨⟨"a"⟩, .schedule, Manager.parcel⟩)) rfl] ++ inTurn [9, 10, 11]

theorem secondName_naming {among : NodeId → Prop} (self : among ⟨"b"⟩) (second : among ⟨"b2"⟩) :
    (Terms.naming ⟨"a"⟩ ⟨"b"⟩ among self).Course (start Presence.vacantPair) secondName := by
  refine ⟨trivial, trivial, ⟨?_, ?_, fun _ _ _ _ => trivial⟩, trivial, naming_go ?_, naming_go ?_, naming_go ?_, trivial⟩
  · exact fun _ _ here => absurd here (by decide)
  · intro r hr _ _ x joined
    rw [Request.decode_join (n := ⟨"b2"⟩) (by decide) (by decide)] at hr
    cases hr
    cases joined
    exact second
  all_goals decide +kernel

/-- The second host counts the work twice, and has two names at the first one. -/
theorem copies_bounded_secondName :
    ∃ m m', (secondName.foldl undergo (start Presence.vacantPair)).manager? ⟨"a"⟩ = some m ∧
      (secondName.foldl undergo (start Presence.vacantPair)).manager? ⟨"b"⟩ = some m' ∧
      (m'.statistics.known ⟨"a"⟩).get .scheduleWorkAccepted = 2 ∧
      2 ≤ 2 * m.statistics.own.get .scheduleWorkAccepted := by
  have sent : ((secondName.foldl undergo (start Presence.vacantPair)).manager? ⟨"a"⟩).isSome := by decide +kernel
  have heard : ((secondName.foldl undergo (start Presence.vacantPair)).manager? ⟨"b"⟩).map
      (fun m => (m.statistics.known ⟨"a"⟩).get .scheduleWorkAccepted) = some 2 := by decide +kernel
  obtain ⟨m, origin⟩ := Option.isSome_iff_exists.mp sent
  obtain ⟨m', observer, twice⟩ := Option.map_eq_some_iff.mp heard
  refine ⟨m, m', origin, observer, twice, ?_⟩
  have bounded := copies_bounded (S := {⟨"b"⟩, ⟨"b2"⟩}) (fun e he => (Presence.vacantPair_new e he).1)
    (fun e he => (Presence.vacantPair_new e he).2) (p := ⟨"a"⟩) (o := ⟨"b"⟩) (by decide) (by decide)
    (secondName_naming _ (by decide)) .scheduleWorkAccepted origin observer
  rw [twice] at bounded
  exact bounded

/-- A copy may be larger than the tally itself. Nothing is lost here, late or sent by anybody else, and each host
starts once; the observer has a second name at the origin, and has counted one work twice. -/
theorem copies_exceed :
    ¬ ∀ (hosts : List (NodeId × Host)) (course : List Occurrence) (p o : NodeId) (k : Counter) (m m' : Manager),
      (∀ e ∈ hosts, e.2.New e.1 ∧ Fits e.1.text) → p ≠ o →
      (Terms.naming p o (fun _ => True) trivial).Course (start hosts) course →
      (course.filterMap Occurrence.starts?).Nodup → (course.foldl undergo (start hosts)).net.connected.contains p.text →
      (course.foldl undergo (start hosts)).manager? p = some m →
      (course.foldl undergo (start hosts)).manager? o = some m' →
      (m'.statistics.known p).get k ≤ m.statistics.own.get k := by
  intro bounded
  have counted : ((secondName.foldl undergo (start Presence.vacantPair)).manager? ⟨"a"⟩).map
      (fun m => m.statistics.own.get .scheduleWorkAccepted) = some 1 := by decide +kernel
  have heard : ((secondName.foldl undergo (start Presence.vacantPair)).manager? ⟨"b"⟩).map
      (fun m => (m.statistics.known ⟨"a"⟩).get .scheduleWorkAccepted) = some 2 := by decide +kernel
  obtain ⟨m, origin, once⟩ := Option.map_eq_some_iff.mp counted
  obtain ⟨m', observer, twice⟩ := Option.map_eq_some_iff.mp heard
  have less := bounded Presence.vacantPair secondName ⟨"a"⟩ ⟨"b"⟩ .scheduleWorkAccepted m m' Presence.vacantPair_new
    (by decide) (secondName_naming trivial trivial) (by decide +kernel) (by decide +kernel) origin observer
  rw [once, twice] at less
  exact absurd less (by decide)

end Cluster

end Workshare
