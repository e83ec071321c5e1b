import Mathlib.Algebra.BigOperators.Group.Finset.Piecewise
import Mathlib.Algebra.Order.BigOperators.Group.Finset
import Workshare.Proofs.Cluster.Paces

namespace Workshare.Cluster

def Dated (c : Cluster) : Prop :=
  ∀ v, c.fresh ≤ v → c.tasks.get? v = none

/-- What the task of a ticket weighs; `own` is the one that goes on. -/
def weighs (c : Cluster) (f : Hand → Int) (own : Option Ticket) (v : Ticket) : Int :=
  if own = some v then 0 else (c.tasks.get? v).elim 0 fun task => f task.hand

def load (c : Cluster) (f : Hand → Int) (own : Option Ticket) : Int :=
  ∑ v ∈ Finset.range c.fresh, c.weighs f own v

/-- Tasks have come, each of which is `P`; those that were there before are still the same, and nobody has answered. -/
structure Grows (P : Task → Prop) (c c' : Cluster) : Prop where
  fresh : c.fresh ≤ c'.fresh
  kept : ∀ v, v < c.fresh → c'.tasks.get? v = c.tasks.get? v
  news : ∀ v task, c'.tasks.get? v = some task → c.tasks.get? v = some task ∨ v < c'.fresh ∧ P task
  answers : c'.answers = c.answers

variable {P : Task → Prop} {f : Hand → Int} {own : Option Ticket} {t : Ticket} {c c' c'' : Cluster}

theorem Dated.young (h : c.Dated) {v : Ticket} {task : Task} (hv : c.tasks.get? v = some task) : v < c.fresh := by
  refine Nat.lt_of_not_le fun old => ?_
  rw [h v old] at hv
  cases hv

theorem load_congr (tasks : ∀ v, v < c.fresh → own ≠ some v → c'.tasks.get? v = c.tasks.get? v)
    (fresh : c'.fresh = c.fresh) : c'.load f own = c.load f own := by
  unfold load
  rw [fresh]
  refine Finset.sum_congr rfl fun v hv => ?_
  unfold weighs
  split
  next => rfl
  next hn => rw [tasks v (Finset.mem_range.mp hv) hn]

/-- What the task in hand weighs is what all tasks weigh beyond the others. -/
theorem load_none (ht : t < c.fresh) :
    c.load f none = c.load f (some t) + (c.tasks.get? t).elim 0 fun task => f task.hand := by
  have each : ∀ v, c.weighs f none v =
      c.weighs f (some t) v + if v = t then (c.tasks.get? t).elim 0 fun task => f task.hand else 0 := by
    intro v
    unfold weighs
    by_cases hv : v = t
    · simp [hv]
    · have hn : ¬ some t = some v := fun e => hv (Option.some.inj e).symm
      simp [hv, hn]
  unfold load
  rw [Finset.sum_congr rfl fun v _ => each v, Finset.sum_add_distrib, Finset.sum_ite_eq',
    if_pos (Finset.mem_range.mpr ht)]

theorem load_park (ht : t < c.fresh) (left : Task) :
    (c.park t left).load f none = c.load f (some t) + f left.hand := by
  have others : (c.park t left).load f (some t) = c.load f (some t) := by
    refine load_congr (fun v _ hv => ?_) rfl
    exact (Table.get?_insert _ _ _ _).trans (if_neg fun e => hv (congrArg some e.symm))
  have there : (c.park t left).tasks.get? t = some left := (Table.get?_insert _ _ _ _).trans (if_pos rfl)
  have apart := load_none (c := c.park t left) (f := f) ht
  rwa [others, there] at apart

theorem load_finish (ht : t < c.fresh) (said : Option Answer) :
    (c.finish t said).load f none = c.load f (some t) := by
  have others : (c.finish t said).load f (some t) = c.load f (some t) := by
    refine load_congr (fun v _ hv => ?_) rfl
    exact (Table.get?_erase _ _ _).trans (if_neg fun e => hv (congrArg some e.symm))
  have gone : (c.finish t said).tasks.get? t = none := (Table.get?_erase _ _ _).trans (if_pos rfl)
  have apart := load_none (c := c.finish t said) (f := f) ht
  rw [others, gone] at apart
  exact apart.trans (Int.add_zero _)

theorem load_called :
    ({ c with fresh := c.fresh + 1, front := some c.fresh, called := false } : Cluster).load f (some c.fresh) =
      c.load f none := by
  have others : ∀ v ∈ Finset.range c.fresh,
      ({ c with fresh := c.fresh + 1, front := some c.fresh, called := false } : Cluster).weighs f (some c.fresh) v =
        c.weighs f none v := by
    intro v hv
    have foreign : ¬ some c.fresh = some v := fun e => absurd (Option.some.inj e) (Nat.ne_of_gt (Finset.mem_range.mp hv))
    unfold weighs
    rw [if_neg foreign, if_neg nofun]
  unfold load
  rw [Finset.sum_range_succ, Finset.sum_congr rfl others]
  unfold weighs
  rw [if_pos rfl, Int.add_zero]

theorem load_spawn (owner : ∀ t, own = some t → t < c.fresh) (task : Task) :
    (c.spawn task).1.load f own = c.load f own + f task.hand := by
  have tasks : ∀ v, (c.spawn task).1.tasks.get? v = if v = c.fresh then some task else c.tasks.get? v :=
    fun v => Table.get?_insert _ _ _ _
  have others : ∀ v ∈ Finset.range c.fresh, (c.spawn task).1.weighs f own v = c.weighs f own v := by
    intro v hv
    unfold weighs
    rw [tasks, if_neg (Nat.ne_of_lt (Finset.mem_range.mp hv))]
  have newcomer : (c.spawn task).1.weighs f own c.fresh = f task.hand := by
    have foreign : own ≠ some c.fresh := fun e => absurd (owner _ e) (Nat.lt_irrefl _)
    unfold weighs
    rw [if_neg foreign, tasks, if_pos rfl]
    rfl
  show ∑ v ∈ Finset.range (c.fresh + 1), (c.spawn task).1.weighs f own v = _
  rw [Finset.sum_range_succ, Finset.sum_congr rfl others, newcomer]
  rfl

theorem load_nonneg (positive : ∀ x, 0 ≤ f x) : 0 ≤ c.load f own := by
  refine Finset.sum_nonneg fun v _ => ?_
  unfold weighs
  split
  next => exact Int.le_refl 0
  next =>
    cases c.tasks.get? v with
    | none => exact Int.le_refl 0
    | some task => exact positive task.hand

namespace Grows

theorem of_eq (tasks : c'.tasks = c.tasks) (fresh : c'.fresh = c.fresh) (answers : c'.answers = c.answers) :
    Grows P c c' :=
  ⟨Nat.le_of_eq fresh.symm, fun v _ => by rw [tasks], fun v task hv => .inl (tasks ▸ hv), answers⟩

theorem aside (same : Aside c c') : Grows P c c' :=
  of_eq same.tasks same.fresh same.answers

theorem refl (c : Cluster) : Grows P c c :=
  of_eq rfl rfl rfl

theorem trans (h : Grows P c c') (h' : Grows P c' c'') : Grows P c c'' := by
  refine ⟨Nat.le_trans h.fresh h'.fresh, ?_, ?_, h'.answers.trans h.answers⟩
  · intro v hv
    rw [h'.kept v (Nat.lt_of_lt_of_le hv h.fresh), h.kept v hv]
  · intro v task hv
    rcases h'.news v task hv with hv | new
    · rcases h.news v task hv with hv | ⟨young, new⟩
      · exact .inl hv
      · exact .inr ⟨Nat.lt_of_lt_of_le young h'.fresh, new⟩
    · exact .inr new

theorem dated (h : Grows P c c') (dated : c.Dated) : c'.Dated := by
  intro v hv
  cases ht : c'.tasks.get? v with
  | none => rfl
  | some task =>
    rcases h.news v task ht with there | ⟨young, _⟩
    · rw [dated v (Nat.le_trans h.fresh hv)] at there
      cases there
    · exact absurd young (Nat.not_lt_of_le hv)

/-- Newcomers that weigh nothing leave the load as it was. -/
theorem load (h : Grows P c c') (dated : c.Dated) (owner : ∀ t, own = some t → t < c.fresh)
    (light : ∀ task, P task → f task.hand = 0) : c'.load f own = c.load f own := by
  have before : ∀ v ∈ Finset.range c.fresh, c'.weighs f own v = c.weighs f own v := by
    intro v hv
    unfold weighs
    rw [h.kept v (Finset.mem_range.mp hv)]
  have added : ∀ v ∈ Finset.range c'.fresh, v ∉ Finset.range c.fresh → c'.weighs f own v = 0 := by
    intro v _ hv
    have new : c.fresh ≤ v := by simpa using hv
    have foreign : own ≠ some v := fun e => absurd (owner v e) (Nat.not_lt_of_le new)
    unfold weighs
    rw [if_neg foreign]
    cases ht : c'.tasks.get? v with
    | none => rfl
    | some task =>
      rcases h.news v task ht with there | ⟨_, new⟩
      · exact absurd (dated.young there) (Nat.not_lt_of_le new)
      · exact light task new
  have wider : Finset.range c.fresh ⊆ Finset.range c'.fresh := Finset.range_mono h.fresh
  unfold Cluster.load
  rw [← Finset.sum_subset wider added, Finset.sum_congr rfl before]

theorem spawn {task : Task} (ht : P task) : Grows P c (c.spawn task).1 := by
  have tasks : ∀ v, (c.spawn task).1.tasks.get? v = if v = c.fresh then some task else c.tasks.get? v :=
    fun v => Table.get?_insert _ _ _ _
  refine ⟨Nat.le_succ _, ?_, ?_, rfl⟩
  · intro v hv
    rw [tasks, if_neg (Nat.ne_of_lt hv)]
  · intro v task' hv
    rw [tasks] at hv
    split at hv
    next e => cases hv; exact .inr ⟨by rw [e]; exact Nat.lt_succ_self _, ht⟩
    next => exact .inl hv

theorem foldl {β : Type} {step : Cluster → β → Cluster} (xs : List β) (hstep : ∀ c x, Grows P c (step c x)) :
    Grows P c (xs.foldl step c) := by
  induction xs generalizing c with
  | nil => exact refl c
  | cons x xs ih => exact (hstep c x).trans ih

theorem withBook (p : NodeId) (f : AddressBook String → AddressBook String × List MembershipChange) :
    Grows P c (c.withBook p f).1 := by
  unfold Cluster.withBook
  split
  next => exact refl c
  next => exact of_eq rfl rfl rfl

theorem withLane {α : Type} (p : NodeId) (long : Bool) (f : Lane → Lane × α) : Grows P c (c.withLane p long f).1 := by
  unfold Cluster.withLane
  split
  next => exact of_eq rfl rfl rfl
  next => exact refl c

theorem post (posted : ∀ target op body delay, P (.post target op body delay)) (sender : NodeId)
    (targets : List String) (op : UInt16) (body : List UInt8) : Grows P c (c.post sender targets op body) := by
  refine foldl targets fun c target => ?_
  split
  next => exact spawn (posted _ _ _ _)
  next => exact refl c

section Casts

variable (cast : ∀ sender targets op body, P (.broadcast sender targets op body))

include cast

theorem broadcast (p : NodeId) (r : Request String) : Grows P c (c.broadcast p r) := by
  unfold Cluster.broadcast
  split
  next => exact refl c
  next =>
    dsimp only
    split
    next => exact refl c
    next => exact spawn (cast _ _ _ _)

theorem performAll (p : NodeId) (effects : List Effect) : Grows P c (effects.foldl (perform p) c) := by
  refine foldl effects fun c e => ?_
  have recorded : Grows P c (c.record (.effect p e)) := of_eq rfl rfl rfl
  unfold perform
  dsimp only
  split
  next => exact recorded.trans (broadcast cast p _)
  next => exact recorded

theorem manage {α : Type} (p : NodeId) (act : Manager → Manager × α) : Grows P c (c.manage p act).1 := by
  rcases c.manage_cases p act with ⟨_, e⟩ | ⟨h, m, _, _, e⟩
  · rw [e]
    exact refl c
  · have stood : Grows P c (c.setHost p { h with manager := some (act m).1.drain.2 }) := of_eq rfl rfl rfl
    rw [e]
    exact stood.trans (performAll cast p _)

theorem managed {α : Type} {p : NodeId} {act : Manager → Manager × α} {answer : Option α}
    (h : c.manage p act = (c', answer)) : Grows P c c' := by
  have managed : Grows P c (c.manage p act).1 := manage cast p act
  rwa [h] at managed

theorem tell (p : NodeId) (act : Manager → Manager) : Grows P c (c.tell p act) :=
  manage cast p _

theorem report (p : NodeId) (change : MembershipChange) : Grows P c (report p c change) := by
  cases change with
  | joined q => exact tell cast p _
  | left q => exact tell cast p _

theorem addMember (p q : NodeId) (a : String) : Grows P c (c.addMember p q a) :=
  addMember_keeps (fun _ change h => h.trans (report cast p change)) (withBook p _)

theorem removeMember (p q : NodeId) : Grows P c (c.removeMember p q) :=
  removeMember_keeps (fun _ change h => h.trans (report cast p change)) (withBook p _)

theorem onView (asked : ∀ p q, p ≠ q → P (.refresh p q)) (p : NodeId) (members : List (NodeId × String)) :
    Grows P c (c.onView p members) :=
  onView_keeps (fun _ change h => h.trans (report cast p change))
    (fun _ q other h => h.trans (spawn (asked p q (Ne.symm other)))) (withBook p _)

end Casts

end Grows

end Workshare.Cluster
