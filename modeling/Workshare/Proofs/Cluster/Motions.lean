import Workshare.Proofs.Cluster.Drifts
import Workshare.Proofs.Cluster.Walks

namespace Workshare

/-- A deed that concerns no more than one manager. -/
def Deed.isSmall : Deed → Bool
  | .later _ => true
  | .clock _ _ => true
  | .queue _ _ _ => true
  | .move _ _ _ => true
  | .release _ => true
  | _ => false

/-- What is still due at node `n` after a deed. -/
def Deed.leaves (n : NodeId) (due : Int) : Deed → Int
  | .move p x _ => if p = n then due - x.weight else due
  | _ => due

def Traffic.any : Traffic where
  cast _ := True
  sent _ _ := True
  served _ _ := True

namespace Task

theorem carries_any (task : Task) : task.Carries .any := by
  cases task with
  | ask host peer request purpose => exact fun _ _ _ _ => trivial
  | serve host op body => exact fun _ _ _ => trivial
  | call x purpose =>
    obtain ⟨peer, target, limit, deadline, exchange⟩ := x
    cases exchange with
    | travelling arrival op body => exact fun _ _ _ => trivial
    | serving e => trivial
  | broadcast sender targets op body => exact fun _ _ => trivial
  | post target op body delay => exact fun _ _ => trivial
  | deliver target op body arrival => exact fun _ _ => trivial
  | _ => trivial

end Task

/-- Nothing is done to a manager that counts, and `Q` is kept of every executor. -/
def Terms.uncounted (Q : Executor → Prop) : Terms :=
  { Terms.any with
    moves := fun _ x => x.weight = 0
    executors := fun _ x y => Q x → Q y
    dialling := fun _ => ⟨rfl, rfl⟩
    keeping := fun _ _ q => q }

namespace Cluster

/-- One small change of a cluster while no task goes on; what is due at node `n` changes as in a stride. `Q` is kept of
every executor. -/
inductive Motion (Q : Executor → Prop) (n : NodeId) : Cluster × Int → Cluster × Int → Prop
  | stride {s s' : Cluster × Int} : Stride .any n s s' → Motion Q n s s'
  | network {c : Cluster} {due : Int} (net : Loopback) : Motion Q n (c, due) ({ c with net := net }, due)
  | view {c : Cluster} {due : Int} (p : NodeId) (members : List (NodeId × String)) :
      Motion Q n (c, due) (c.onView p members, due)
  | depart {c : Cluster} {due : Int} (p : NodeId) : Motion Q n (c, due) (c.depart p, due)
  | alter {c : Cluster} {due : Int} {p : NodeId} {f : Host → Host} : (∀ h, (f h).manager = h.manager) →
      (∀ h, (f h).book = h.book) → (∀ h, Q h.executor → Q (f h).executor) → Motion Q n (c, due) (c.alter p f, due)

def Motions (Q : Executor → Prop) (n : NodeId) : Cluster × Int → Cluster × Int → Prop :=
  Relation.ReflTransGen (Motion Q n)

variable {Q : Executor → Prop} {n : NodeId} {c c' : Cluster} {due due' : Int}

namespace Motions

theorem refl (s : Cluster × Int) : Motions Q n s s :=
  Relation.ReflTransGen.refl

theorem single {s s' : Cluster × Int} (h : Motion Q n s s') : Motions Q n s s' :=
  Relation.ReflTransGen.single h

theorem trans {s s' s'' : Cluster × Int} (h : Motions Q n s s') (h' : Motions Q n s' s'') : Motions Q n s s'' :=
  Relation.ReflTransGen.trans h h'

theorem of_strides {s s' : Cluster × Int} (h : Strides .any n s s') : Motions Q n s s' := by
  induction h with
  | refl => exact refl _
  | tail _ last ih => exact ih.trans (single (.stride last))

theorem tell (p : NodeId) {act : Manager → Manager} (h : ∀ m : Manager, m.Stirs (act m) 0) :
    Motions Q n (c, due) (c.tell p act, due) :=
  of_strides (strides_manage_idle (fun _ _ => trivial) p h)

theorem of_drift (h : Drift (.uncounted Q) c c') : Motions Q n (c, due) (c', due) := by
  cases h with
  | aside same => exact of_strides (.aside same)
  | spawn _ _ empty => exact of_strides (.spawn (Task.carries_any _) (by rw [Task.due_eq, empty]; rfl))
  | network net => exact single (.network net)
  | view _ => exact single (.view _ _)
  | enter p => exact single (.stride (.join trivial))
  | broadcast p _ => exact of_strides (strides_broadcast p fun _ _ => trivial)
  | post p targets _ => exact of_strides (strides_post p targets fun _ _ _ _ => trivial)
  | move light _ inner =>
    rename_i p x _
    have light : x.weight = 0 := light
    exact tell p fun m => light ▸ Manager.Stirs.move m inner
  | announce p => exact tell p fun m => Manager.Stirs.move m (x := .announceAll _) rfl
  | depart p => exact single (.depart p)
  | alter manager book kept =>
    exact single (.alter manager book kept)

theorem of_drifts (h : Drifts (.uncounted Q) c c') : Motions Q n (c, due) (c', due) := by
  induction h with
  | refl => exact refl _
  | tail _ last ih => exact ih.trans (of_drift last)

end Motions

theorem due_wish (w : Wish) (now : Nat) : (w.task now).due n = 0 := by
  rw [Task.due_eq, hand_wish]
  rfl

theorem strides_does {T : Traffic} (plain : ∀ r, r.isMembership = false → T.cast r) {d : Deed} (inner : d.isInner)
    (small : d.isSmall) : Strides T n (c, due) (c.does d, d.leaves n due) := by
  cases d with
  | later w => exact .spawn (carries_wish w c.now) (due_wish w c.now)
  | clock now timers => exact .aside ⟨rfl, rfl, rfl, rfl, rfl, rfl⟩
  | queue ready front called => exact .aside ⟨rfl, rfl, rfl, rfl, rfl, rfl⟩
  | move p x other => exact strides_tell plain p fun m => Manager.Stirs.move m inner
  | release count =>
    have gated : Strides T n (c, due) ({ c with gate := (c.gate.giveMany count).1 }, due) := .aside ⟨rfl, rfl, rfl, rfl, rfl, rfl⟩
    exact gated.trans (.wakeAll _)
  | _ => cases small

/-- A deed in which no task goes on is made of motions. -/
theorem motions_does {d : Deed} (inner : d.isInner) (free : ∀ w, d ≠ .begin w) (idle : ∀ t, d ≠ .go t)
    (executors : ∀ p e, d = .executor p e → Q e) : Motions Q n (c, due) (c.does d, d.leaves n due) := by
  by_cases small : d.isSmall
  · exact .of_strides (strides_does (fun _ _ => trivial) inner small)
  · cases d with
    | begin w => exact absurd rfl (free w)
    | go t => exact absurd rfl (idle t)
    | network net => exact .single (.network net)
    | start p => exact .of_drifts (.startNode p)
    | stop p => exact .of_drifts (.stopNode p)
    | executor p e => exact .single (.alter (fun _ => rfl) (fun _ => rfl) fun _ _ => executors p e rfl)
    | timeout p limit => exact .single (.alter (fun _ => rfl) (fun _ => rfl) fun _ q => q)
    | _ => exact absurd rfl small

theorem treads_any (c : Cluster) (t : Ticket) (task : Task) :
    Treads .any .any t (c, task.hand) (c.resume t task) :=
  treads_resume (fun _ _ _ _ => trivial) task.carries_any task.heeds_any (fun _ _ _ _ _ _ _ => trivial)
    fun _ _ _ _ _ _ _ _ => trivial

theorem walks_any (c : Cluster) (n : NodeId) (t : Ticket) (task : Task) :
    Walks .any n t (c, task.due n) (c.resume t task) :=
  walks_resume (fun _ _ => trivial) t (fun _ _ _ _ => trivial) (Task.carries_any task) fun _ _ _ _ _ _ _ => trivial

end Cluster

end Workshare
