import Workshare.Proofs.Cluster.Agreement

namespace Workshare.Cluster

def book? (c : Cluster) (n : NodeId) : Option (AddressBook String) :=
  (c.host? n).map (·.book)

variable {α : Type} {n p : NodeId} {c c' : Cluster} {h h' : Host} {m : Manager} {long : Bool}

theorem host?_setHost (h : Host) (q : NodeId) : (c.setHost p h).host? q = if q = p then some h else c.host? q :=
  Table.get?_insert _ _ _ _

section Replaced

variable (hp : c.host? p = some h)

include hp

theorem executor?_replace (same : h'.executor = h.executor) (q : NodeId) :
    (c.setHost p h').executor? q = c.executor? q := by
  unfold executor?
  rw [host?_setHost]
  split
  next hq => rw [hq, hp]; exact congrArg some same
  next => rfl

theorem manager?_replace (same : h'.manager = h.manager) (q : NodeId) :
    (c.setHost p h').manager? q = c.manager? q := by
  unfold manager?
  rw [host?_setHost]
  split
  next hq => rw [hq, hp]; exact same
  next => rfl

theorem book?_replace (same : h'.book = h.book) (q : NodeId) : (c.setHost p h').book? q = c.book? q := by
  unfold book?
  rw [host?_setHost]
  split
  next hq => rw [hq, hp]; exact congrArg some same
  next => rfl

end Replaced

theorem host?_congr (h : c'.hosts = c.hosts) (q : NodeId) : c'.host? q = c.host? q := by
  unfold host?
  rw [h]

theorem executor?_congr (h : c'.hosts = c.hosts) (q : NodeId) : c'.executor? q = c.executor? q := by
  unfold executor?
  rw [host?_congr h]

theorem manager?_congr (h : c'.hosts = c.hosts) (q : NodeId) : c'.manager? q = c.manager? q := by
  unfold manager?
  rw [host?_congr h]

theorem book?_congr (h : c'.hosts = c.hosts) (q : NodeId) : c'.book? q = c.book? q := by
  unfold book?
  rw [host?_congr h]

theorem executor?_setHost (h : Host) (q : NodeId) :
    (c.setHost p h).executor? q = if q = p then some h.executor else c.executor? q := by
  unfold executor?
  rw [host?_setHost]
  split
  next => rfl
  next => rfl

theorem hosts_post (sender : NodeId) (targets : List String) (op : UInt16) (body : List UInt8) :
    (c.post sender targets op body).hosts = c.hosts := by
  unfold Cluster.post
  induction targets generalizing c with
  | nil => rfl
  | cons target targets ih =>
    rw [List.foldl_cons, ih]
    split
    next => rfl
    next => rfl

theorem host_of_manager (hm : c.manager? p = some m) : ∃ h, c.host? p = some h ∧ h.manager = some m :=
  Option.bind_eq_some_iff.mp hm

theorem tell_absent (hm : c.manager? p = none) (act : Manager → Manager) : c.tell p act = c :=
  congrArg Prod.fst (manage_none hm fun m => (act m, ()))

theorem tell_eq (hp : c.host? p = some h) (hm : h.manager = some m) (act : Manager → Manager) :
    c.tell p act = (act m).drain.1.foldl (perform p) (c.setHost p { h with manager := some (act m).drain.2 }) :=
  congrArg Prod.fst (manage_some hp hm fun m => (act m, ()))

theorem manager?_tell (hm : c.manager? p = some m) (act : Manager → Manager) :
    (c.tell p act).manager? p = some (act m).drain.2 := by
  obtain ⟨h, hp, attached⟩ := host_of_manager hm
  rw [tell_eq hp attached, manager?_congr (hosts_performAll _ _ _)]
  unfold manager?
  rw [host?_setHost, if_pos rfl]
  rfl

theorem manager?_tell_of_ne (other : p ≠ n) (act : Manager → Manager) : (c.tell p act).manager? n = c.manager? n := by
  cases hm : c.manager? p with
  | none => rw [tell_absent hm]
  | some m =>
    obtain ⟨h, hp, attached⟩ := host_of_manager hm
    rw [tell_eq hp attached, manager?_congr (hosts_performAll _ _ _)]
    unfold manager?
    rw [host?_setHost, if_neg (Ne.symm other)]

theorem book?_tell (p : NodeId) (act : Manager → Manager) (q : NodeId) : (c.tell p act).book? q = c.book? q := by
  cases hm : c.manager? p with
  | none => rw [tell_absent hm]
  | some m =>
    obtain ⟨h, hp, attached⟩ := host_of_manager hm
    rw [tell_eq hp attached, book?_congr (hosts_performAll _ _ _)]
    exact book?_replace hp (by rfl) q

theorem manage_answer (hm : c.manager? p = some m) (act : Manager → Manager × α) :
    (c.manage p act).2 = some (act m).2 := by
  obtain ⟨h, hp, attached⟩ := host_of_manager hm
  rw [manage_some hp attached]

theorem Agrees.sound {Q : Executor → Prop} (h : c.Agrees Q) (hm : c.manager? n = some m) : m.Sound := by
  obtain ⟨host, hh, attached⟩ := host_of_manager hm
  obtain ⟨_, m', hm', agree⟩ := h n host hh
  rw [attached] at hm'
  cases hm'
  exact agree.sound

theorem manage_acted {act : Manager → Manager × α} {answer : Option α} (hc : c.manage p act = (c', answer)) :
    c' = c.tell p fun m => (act m).1 :=
  (congrArg Prod.fst hc).symm.trans (manage_fst c p act)

theorem withLane_some {α : Type} {p : NodeId} {f : Lane → Lane × α} {a : α} (h : c.withLane p long f = (c', some a)) :
    ∃ host pool, c.host? p = some host ∧ host.executor = .pool pool ∧ (f (pool.lane long)).2 = a ∧
      c' = c.setHost p { host with executor := .pool (pool.setLane long (f (pool.lane long)).1) } := by
  unfold withLane at h
  split at h
  next pool manager book timeout hh =>
    cases h
    exact ⟨_, pool, hh, rfl, rfl, rfl⟩
  next => cases h

theorem manager?_withBook (p : NodeId) (f : AddressBook String → AddressBook String × List MembershipChange)
    (q : NodeId) : (c.withBook p f).1.manager? q = c.manager? q := by
  unfold Cluster.withBook
  split
  next => rfl
  next host hp => exact manager?_replace hp (by rfl) q

theorem executor?_withBook (p : NodeId) (f : AddressBook String → AddressBook String × List MembershipChange)
    (q : NodeId) : (c.withBook p f).1.executor? q = c.executor? q := by
  unfold Cluster.withBook
  split
  next => rfl
  next host hp => exact executor?_replace hp (by rfl) q

theorem manager?_alter {f : Host → Host} (manager : ∀ h, (f h).manager = h.manager) (q : NodeId) :
    (c.alter p f).manager? q = c.manager? q := by
  unfold Cluster.alter
  split
  next h hp => exact manager?_replace hp (manager h) q
  next => rfl

theorem book?_alter {f : Host → Host} (book : ∀ h, (f h).book = h.book) (q : NodeId) :
    (c.alter p f).book? q = c.book? q := by
  unfold Cluster.alter
  split
  next h hp => exact book?_replace hp (book h) q
  next => rfl

theorem withLane_rest {f : Lane → Lane × α} {a : α} (hc : c.withLane p long f = (c', some a)) (q : NodeId) :
    (c'.executor? q).isSome = (c.executor? q).isSome ∧ c'.manager? q = c.manager? q ∧ c'.book? q = c.book? q := by
  obtain ⟨host, pool, hp, _, _, rfl⟩ := withLane_some hc
  refine ⟨?_, manager?_replace hp (by rfl) q, book?_replace hp (by rfl) q⟩
  rw [executor?_setHost]
  split
  next hq =>
    unfold executor?
    rw [hq, hp]
    rfl
  next => rfl

theorem executor?_alter (p : NodeId) (f : Host → Host) (q : NodeId) :
    (c.alter p f).executor? q = if q = p then (c.host? p).map fun h => (f h).executor else c.executor? q := by
  unfold Cluster.alter
  cases hp : c.host? p with
  | none =>
    dsimp only
    split
    next hq =>
      unfold executor?
      rw [hq, hp]
      rfl
    next => rfl
  | some h => exact executor?_setHost (f h) q

theorem isSome_alter (p : NodeId) (f : Host → Host) (q : NodeId) :
    ((c.alter p f).executor? q).isSome = (c.executor? q).isSome := by
  rw [executor?_alter]
  split
  next hq =>
    unfold executor?
    rw [hq, Option.isSome_map, Option.isSome_map]
  next => rfl

theorem executor?_manage {α : Type} (p : NodeId) (act : Manager → Manager × α) (q : NodeId) :
    (c.manage p act).1.executor? q = c.executor? q := by
  rw [manage_fst]
  exact executor?_tell c p _ q

theorem executor?_managed {α : Type} {p : NodeId} {act : Manager → Manager × α} {answer : Option α}
    (h : c.manage p act = (c', answer)) (q : NodeId) : c'.executor? q = c.executor? q := by
  have same := executor?_manage (c := c) p act q
  rwa [h] at same

theorem executor?_report (p : NodeId) (change : MembershipChange) (q : NodeId) :
    (report p c change).executor? q = c.executor? q := by
  cases change with
  | joined r => exact executor?_tell c p _ q
  | left r => exact executor?_tell c p _ q

theorem executor?_addMember (p r : NodeId) (a : String) (q : NodeId) :
    (c.addMember p r a).executor? q = c.executor? q :=
  addMember_keeps (I := fun c' => c'.executor? q = c.executor? q)
    (fun _ change h => (executor?_report p change q).trans h) (executor?_withBook p _ q)

theorem executor?_removeMember (p r q : NodeId) : (c.removeMember p r).executor? q = c.executor? q :=
  removeMember_keeps (I := fun c' => c'.executor? q = c.executor? q)
    (fun _ change h => (executor?_report p change q).trans h) (executor?_withBook p _ q)

theorem executor?_onView (p : NodeId) (members : List (NodeId × String)) (q : NodeId) :
    (c.onView p members).executor? q = c.executor? q :=
  onView_keeps (I := fun c' => c'.executor? q = c.executor? q)
    (fun _ change h => (executor?_report p change q).trans h) (fun _ _ _ h => h) (executor?_withBook p _ q)

theorem executor?_post (sender : NodeId) (targets : List String) (op : UInt16) (body : List UInt8) (q : NodeId) :
    (c.post sender targets op body).executor? q = c.executor? q :=
  executor?_congr (hosts_post sender targets op body) q

theorem Drift.executor? {W : Terms} (drift : Drift W c c') (fixed : ∀ x y, W.executors n x y → y = x) :
    c'.executor? n = c.executor? n := by
  cases drift with
  | aside same => exact executor?_congr same.hosts n
  | spawn _ _ _ => rfl
  | network net => rfl
  | view _ => exact executor?_onView _ _ n
  | enter p => exact executor?_addMember _ _ _ n
  | broadcast p _ => exact executor?_congr (hosts_broadcast c p _) n
  | post p targets _ => exact executor?_post _ _ _ _ n
  | move _ _ _ => exact executor?_tell _ _ _ n
  | announce p => exact executor?_tell _ _ _ n
  | depart p => exact (executor?_tell _ _ _ n).trans (executor?_withBook p _ n)
  | @alter p f _ _ kept =>
    rw [executor?_alter]
    split
    next hn =>
      subst hn
      exact Option.map_congr fun h _ => fixed _ _ (kept h)
    next => rfl

end Workshare.Cluster
