import Workshare.Proofs.Cluster.Paces

namespace Workshare

/-- A work that has a worker is to be answered. -/
def Errand.due (n : NodeId) (e : Errand) : Int :=
  match e.wait with
  | .finish _ => if e.host = n then -1 else 0
  | .pause _ => 0
  | .worker _ _ => 0

def Exchange.due (n : NodeId) : Exchange → Int
  | .travelling _ _ _ => 0
  | .serving e => e.due n

/-- Whoever holds a worker will count an outcome. -/
def Task.due (n : NodeId) : Task → Int
  | .errand e _ => e.due n
  | .call x _ => x.exchange.due n
  | .runner p _ _ _ => if p = n then 1 else 0
  | _ => 0

/-- An answer that will not be given is no longer due. -/
def Event.waived (n : NodeId) : Event → Int
  | .dropped p _ => if p = n then 1 else 0
  | _ => 0

namespace Cluster

/-- The node has a manager that counts, and a pool that runs its works. -/
def Kept (c : Cluster) (n : NodeId) : Prop :=
  ∃ h m pool, c.host? n = some h ∧ h.manager = some m ∧ h.executor = .pool pool

/-- One small change while a task goes on, and what is due at node `n` from then on, apart from what other tasks owe. -/
inductive Stride (T : Traffic) (n : NodeId) : Cluster × Int → Cluster × Int → Prop
  | aside {c c' : Cluster} {due : Int} : Aside c c' → Stride T n (c, due) (c', due)
  | record {c : Cluster} {due : Int} (e : Event) : Stride T n (c, due) (c.record e, due + e.waived n)
  | spawn {c : Cluster} {due : Int} {task : Task} : task.Carries T →
      Stride T n (c, due) ((c.spawn task).1, due - task.due n)
  | lane {c : Cluster} {due : Int} {p : NodeId} {h : Host} {pool : Pool} (pool' : Pool) : c.host? p = some h →
      h.executor = .pool pool → Stride T n (c, due) (c.setHost p { h with executor := .pool pool' }, due)
  | manager {c : Cluster} {due weight : Int} {p : NodeId} {h : Host} {m m' : Manager} : c.host? p = some h →
      h.manager = some m → m.Stirs m' weight → m'.outbox = [] →
      Stride T n (c, due) (c.setHost p { h with manager := some m' }, if p = n then due - weight else due)
  | join {c : Cluster} {due : Int} {p q : NodeId} {a : String} : T.served p (.join q a) →
      Stride T n (c, due) (c.addMember p q a, due)
  | leave {c : Cluster} {due : Int} {p q : NodeId} : T.served p (.leave q) →
      Stride T n (c, due) (c.removeMember p q, due)
  | unkept {c : Cluster} {due : Int} (due' : Int) : ¬ c.Kept n → Stride T n (c, due) (c, due')

def Strides (T : Traffic) (n : NodeId) : Cluster × Int → Cluster × Int → Prop :=
  Relation.ReflTransGen (Stride T n)

variable {T : Traffic} {n : NodeId} {c c' c'' : Cluster} {due due' due'' : Int}

theorem Stride.shift {s s' : Cluster × Int} (h : Stride T n s s') (more : Int) :
    Stride T n (s.1, s.2 + more) (s'.1, s'.2 + more) := by
  cases h with
  | aside same => exact .aside same
  | record e =>
    rename_i c due
    have shifted := @Stride.record T n c (due + more) e
    rwa [Int.add_right_comm] at shifted
  | spawn ht =>
    rename_i c due task
    have shifted := @Stride.spawn T n c (due + more) task ht
    rwa [show due + more - task.due n = due - task.due n + more by omega] at shifted
  | lane pool' hh hx => exact .lane pool' hh hx
  | manager hh hm stirs quiet =>
    rename_i c due weight p h m m'
    have shifted := @Stride.manager T n c (due + more) weight p h m m' hh hm stirs quiet
    have same : (if p = n then due + more - weight else due + more) = (if p = n then due - weight else due) + more := by
      split
      next => omega
      next => rfl
    rwa [same] at shifted
  | join hs => exact .join hs
  | leave hs => exact .leave hs
  | unkept due' hk => exact .unkept _ hk

namespace Strides

theorem refl (s : Cluster × Int) : Strides T n s s :=
  Relation.ReflTransGen.refl

theorem single {s s' : Cluster × Int} (h : Stride T n s s') : Strides T n s s' :=
  Relation.ReflTransGen.single h

theorem trans {s s' s'' : Cluster × Int} (h : Strides T n s s') (h' : Strides T n s' s'') : Strides T n s s'' :=
  Relation.ReflTransGen.trans h h'

theorem aside (h : Aside c c') : Strides T n (c, due) (c', due) :=
  single (.aside h)

theorem record {e : Event} (he : e.waived n = 0) : Strides T n (c, due) (c.record e, due) := by
  have recorded : Strides T n (c, due) (c.record e, due + e.waived n) := single (.record e)
  rwa [he, Int.add_zero] at recorded

theorem spawn {task : Task} (ht : task.Carries T) (hd : task.due n = 0) :
    Strides T n (c, due) ((c.spawn task).1, due) := by
  have spawned : Strides T n (c, due) ((c.spawn task).1, due - task.due n) := single (.spawn ht)
  rwa [hd, Int.sub_zero] at spawned

theorem shift (h : Strides T n (c, due) (c', due')) (more : Int) : Strides T n (c, due + more) (c', due' + more) := by
  have lifted := Relation.ReflTransGen.lift (fun s : Cluster × Int => (s.1, s.2 + more))
    (fun _ _ last => Stride.shift last more) _ _ h
  exact lifted

/-- Nothing can be due at a node of which no account is kept. -/
theorem of_unkept (hk : ¬ c.Kept n) (h : Strides T n (c, due) (c', due')) (due₁ due₂ : Int) :
    Strides T n (c, due₁) (c', due₂) := by
  have shifted := h.shift (due₂ - due')
  have started : Strides T n (c, due₁) (c, due + (due₂ - due')) := single (.unkept _ hk)
  have both := started.trans shifted
  rwa [show due' + (due₂ - due') = due₂ by omega] at both

theorem foldl {β : Type} {step : Cluster → β → Cluster} (xs : List β)
    (hstep : ∀ c x, x ∈ xs → Strides T n (c, due) (step c x, due)) : Strides T n (c, due) (xs.foldl step c, due) := by
  induction xs generalizing c with
  | nil => exact refl _
  | cons x xs ih =>
    exact (hstep c x List.mem_cons_self).trans (ih fun c y hy => hstep c y (List.mem_cons_of_mem x hy))

theorem wakeAll (ts : List Ticket) : Strides T n (c, due) (c.wakeAll ts, due) :=
  aside (.wakeAll c ts)

theorem withLane {α : Type} (p : NodeId) (long : Bool) (f : Lane → Lane × α) :
    Strides T n (c, due) ((c.withLane p long f).1, due) := by
  unfold Cluster.withLane
  split
  next hh => exact single (.lane _ hh rfl)
  next => exact refl _

end Strides

theorem strides_broadcast (p : NodeId) {r : Request String}
    (hr : Reads T.cast (r.encode .string).1 (r.encode .string).2) : Strides T n (c, due) (c.broadcast p r, due) := by
  rcases c.broadcast_cases p r with e | ⟨targets, e⟩
  · rw [e]
    exact .refl _
  · rw [e]
    exact .spawn hr rfl

variable (plain : ∀ r, r.isMembership = false → T.cast r)

section Managers

include plain

theorem strides_performAll (p : NodeId) (effects : List Effect) :
    Strides T n (c, due) (effects.foldl (perform p) c, due) := by
  refine .foldl effects fun c e _ => ?_
  have recorded : Strides T n (c, due) (c.record (.effect p e), due) := .record rfl
  unfold perform
  dsimp only
  split
  next r hr => exact recorded.trans (strides_broadcast p fun r' hd => plain r' (reads_encode (plain_request hr) r' hd))
  next => exact recorded

/-- A manager acts, and the balance of its node changes by the weight of what it does. -/
theorem strides_manage {α : Type} (p : NodeId) {act : Manager → Manager × α} {weight : Int}
    (h : ∀ m : Manager, m.Stirs (act m).1 weight) :
    Strides T n (c, due) ((c.manage p act).1, if p = n then due - weight else due) := by
  rcases c.manage_cases p act with ⟨none, e⟩ | ⟨host, m, hh, hm, e⟩
  · rw [e]
    split
    next hp =>
      refine .single (.unkept _ ?_)
      rintro ⟨h, m, _, hh, hm, _⟩
      have managed : c.manager? p = some m := Option.bind_eq_some_iff.mpr ⟨h, hp ▸ hh, hm⟩
      rw [none] at managed
      cases managed
    next => exact .refl _
  · have acted : Strides T n (c, due) (c.setHost p { host with manager := some (act m).1.drain.2 }, _) :=
      .single (.manager hh hm (h m).drain rfl)
    rw [e]
    exact acted.trans (strides_performAll plain p _)

theorem strides_tell (p : NodeId) {act : Manager → Manager} {weight : Int} (h : ∀ m : Manager, m.Stirs (act m) weight) :
    Strides T n (c, due) (c.tell p act, if p = n then due - weight else due) :=
  strides_manage plain p h

/-- What a manager does that counts for nothing. -/
theorem strides_manage_idle {α : Type} (p : NodeId) {act : Manager → Manager × α}
    (h : ∀ m : Manager, m.Stirs (act m).1 0) : Strides T n (c, due) ((c.manage p act).1, due) := by
  have acted : Strides T n (c, due) ((c.manage p act).1, if p = n then due - 0 else due) := strides_manage plain p h
  rwa [Int.sub_zero, ite_self] at acted

end Managers

end Cluster

end Workshare
