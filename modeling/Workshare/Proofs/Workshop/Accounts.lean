import Mathlib.Algebra.BigOperators.Ring.Finset
import Workshare.Proofs.Workshop.Runs

namespace Workshare.Workshop

variable {w : Workshop} {n : NodeId} {p q : Pool} {sizes : Bool → Nat} {t s r v : Ticket} {mode : Mode} {work : Work}
  {task : Task} {long : Bool}

theorem workers_bounds (x : Hand) : x.workers n long = 0 ∨ x.workers n long = 1 := by
  unfold Hand.workers
  split
  next => split <;> decide
  next => split <;> decide
  next => exact .inl rfl

/-- Of the tasks of a work only one holds a worker. -/
theorem Shape.workers (shape : w.Shape n t mode work s task) (holds : task.hand.workers n long = 1) :
    w.parent s = some t ∧ work.longRunning = long := by
  cases shape with
  | runner hired =>
    have holds : (if (n, work.longRunning) = (n, long) then (1 : Int) else 0) = 1 := holds
    split at holds
    next same => exact ⟨hired, (Prod.ext_iff.mp same).2⟩
    next => cases holds
  | submit _ => cases holds
  | queued _ => cases holds
  | awaiting _ => cases holds
  | handler _ _ => cases holds

theorem Shape.holds (shape : w.Shape n t mode work s task) (root : w.parent t = none) (hired : w.parent s = some t) :
    task.hand.workers n work.longRunning = 1 := by
  cases shape with
  | runner _ => exact if_pos rfl
  | submit own => rw [own, root] at hired; cases hired
  | queued own => rw [own, root] at hired; cases hired
  | awaiting own => rw [own, root] at hired; cases hired
  | handler manned below =>
    rw [manned] at hired
    cases hired
    rw [root] at below
    cases below

theorem Shape.queued_own (shape : w.Shape n t mode work s task) (queued : task.hand = .queued n long) :
    s = t ∧ work.longRunning = long := by
  cases shape with
  | queued own => cases queued; exact ⟨own, rfl⟩
  | submit _ => cases queued
  | awaiting _ => cases queued
  | runner _ => cases queued
  | handler _ _ => cases queued

/-- The tasks that hold a worker of a lane. -/
def runners (w : Workshop) (n : NodeId) (long : Bool) : Finset Ticket :=
  (Finset.range w.cluster.fresh).filter fun v => w.cluster.weighs (Hand.workers n long) none v = 1

/-- The task of a work begins one task at most. -/
theorem Fate.sole (fate : w.Fate n p t mode work) (hired : w.parent r = some t) (hired' : w.parent v = some t) :
    r = v := by
  cases fate with
  | fresh _ _ _ alone _ => exact absurd hired (alone r)
  | queued _ _ _ alone _ _ => exact absurd hired (alone r)
  | rejected _ _ _ alone _ _ => exact absurd hired (alone r)
  | accepted began _ _ => exact ((began r).mp hired).trans ((began v).mp hired').symm

theorem holds_iff (w : Workshop) (n : NodeId) (long : Bool) (t : Ticket) :
    w.holds n long t = true ↔ ∃ mode work, w.orders.get? t = some (mode, work) ∧ work.longRunning = long ∧
      (t ∈ (w.cluster.lane n long).granted ∨ ∃ r, (w.task r).isSome ∧ w.parent r = some t) := by
  have alive : ∀ r, r ∈ w.cluster.tasks.keys ↔ (w.task r).isSome := fun _ => Table.mem_keys_iff
  unfold holds
  cases w.orders.get? t with
  | none => exact ⟨nofun, fun ⟨_, _, h, _⟩ => nomatch h⟩
  | some o =>
    simp only [decide_eq_true_eq, List.any_eq_true, alive]
    refine ⟨fun ⟨lane, held⟩ => ⟨o.1, o.2, rfl, lane, held⟩, ?_⟩
    rintro ⟨_, _, h, lane, held⟩
    cases h
    exact ⟨lane, held⟩

theorem load_eq (w : Workshop) (n : NodeId) (long : Bool) :
    w.cluster.load (Hand.workers n long) none = (w.runners n long).card := by
  have each : ∀ v, w.cluster.weighs (Hand.workers n long) none v =
      if w.cluster.weighs (Hand.workers n long) none v = 1 then 1 else 0 := by
    intro v
    have bounds : w.cluster.weighs (Hand.workers n long) none v = 0 ∨
        w.cluster.weighs (Hand.workers n long) none v = 1 := by
      unfold Cluster.weighs
      rw [if_neg nofun]
      cases w.cluster.tasks.get? v with
      | none => exact .inl rfl
      | some task => exact workers_bounds task.hand
    rcases bounds with none | one
    · rw [none]
      rfl
    · rw [one]
      rfl
  unfold Cluster.load runners
  rw [Finset.sum_congr rfl fun v _ => each v, Finset.sum_boole]

namespace Sound

theorem shape (sound : w.Sound n p sizes) (there : w.task s = some task) :
    ∃ t mode work, w.orders.get? t = some (mode, work) ∧ w.Shape n t mode work s task := by
  obtain ⟨t, mine, of⟩ := sound.staff s task there
  obtain ⟨⟨mode, work⟩, ordered⟩ := Option.isSome_iff_exists.mp mine
  exact ⟨t, mode, work, ordered, (sound.fates t mode work ordered).shape of there⟩

theorem mans (sound : w.Sound n p sizes) (long : Bool) :
    Cluster.Mans w.cluster n long (sizes long) none .empty (w.cluster.lane n long) := by
  obtain ⟨pool, executor, mans⟩ := sound.staffed
  unfold Cluster.lane
  rw [executor]
  exact mans long

/-- Whoever stands in the queue of a lane is the task of a work of this lane, and has begun nobody yet. -/
theorem line (sound : w.Sound n p sizes)
    (there : t ∈ (w.cluster.lane n long).waiting ++ (w.cluster.lane n long).granted) :
    ∃ mode work, w.orders.get? t = some (mode, work) ∧ work.longRunning = long ∧ w.Alone t := by
  obtain ⟨task, there, queued⟩ := (sound.mans long).others t there nofun
  obtain ⟨t', mode, work, ordered, shape⟩ := sound.shape there
  obtain ⟨rfl, lane⟩ := shape.queued_own queued
  refine ⟨mode, work, ordered, lane, ?_⟩
  cases sound.fates t mode work ordered with
  | fresh _ _ _ alone _ => exact alone
  | queued _ _ _ alone _ _ => exact alone
  | rejected _ _ _ alone _ _ => exact alone
  | accepted _ _ front =>
    cases front with
    | awaits _ own _ _ _ =>
      have own : w.cluster.tasks.get? t = _ := own
      rw [own] at there
      cases there
      cases queued
    | ended _ gone _ _ =>
      have gone : w.cluster.tasks.get? t = none := gone
      rw [gone] at there
      cases there
    | begun _ gone _ _ _ =>
      have gone : w.cluster.tasks.get? t = none := gone
      rw [gone] at there
      cases there

/-- A task holds a worker if and only if a work of the lane has begun it. -/
theorem weighs_iff (sound : w.Sound n p sizes) (long : Bool) (v : Ticket) :
    w.cluster.weighs (Hand.workers n long) none v = 1 ↔ (w.task v).isSome ∧
      ∃ t mode work, w.orders.get? t = some (mode, work) ∧ work.longRunning = long ∧ w.parent v = some t := by
  unfold Cluster.weighs
  rw [if_neg nofun]
  show (w.task v).elim 0 _ = 1 ↔ _
  cases there : w.task v with
  | none => exact ⟨nofun, fun h => nomatch h.1⟩
  | some task =>
    refine ⟨fun holds => ?_, fun ⟨_, t, mode, work, ordered, lane, hired⟩ => ?_⟩
    · obtain ⟨t, mode, work, ordered, shape⟩ := sound.shape there
      obtain ⟨hired, lane⟩ := shape.workers holds
      exact ⟨rfl, t, mode, work, ordered, lane, hired⟩
    · have shape := (sound.fates t mode work ordered).shape (.inr (.inl hired)) there
      subst lane
      exact shape.holds (sound.roots t _ ordered) hired

/-- The works that hold a worker of a lane were handed one, or have begun a task that holds it. -/
theorem holders_eq (sound : w.Sound n p sizes) (long : Bool) :
    w.holders n long = (w.cluster.lane n long).granted.toFinset ∪
      (w.runners n long).image fun v => (w.parent v).getD 0 := by
  ext t
  simp only [holders, runners, Finset.mem_filter, Finset.mem_range, Finset.mem_union, List.mem_toFinset,
    Finset.mem_image, holds_iff, sound.weighs_iff]
  constructor
  · rintro ⟨_, mode, work, ordered, lane, granted | ⟨r, there, hired⟩⟩
    · exact .inl granted
    · refine .inr ⟨r, ⟨sound.old ordered (.inr (.inl hired)), there, t, mode, work, ordered, lane, hired⟩, ?_⟩
      rw [hired]
      rfl
  · rintro (granted | ⟨r, ⟨_, there, t', mode, work, ordered, lane, hired⟩, rfl⟩)
    · obtain ⟨mode, work, ordered, lane, _⟩ := sound.line (List.mem_append_right _ granted)
      exact ⟨sound.older ordered, mode, work, ordered, lane, .inl granted⟩
    · rw [hired]
      exact ⟨sound.older ordered, mode, work, ordered, lane, .inr ⟨r, there, hired⟩⟩

theorem hired_of_runner (sound : w.Sound n p sizes) (hv : v ∈ w.runners n long) :
    ∃ t mode work, w.orders.get? t = some (mode, work) ∧ w.parent v = some t := by
  obtain ⟨_, t, mode, work, ordered, _, hired⟩ := (sound.weighs_iff long v).mp (Finset.mem_filter.mp hv).2
  exact ⟨t, mode, work, ordered, hired⟩

theorem conserved (sound : w.Sound n p sizes) (long : Bool) :
    (w.cluster.lane n long).free + (w.holders n long).card = sizes long := by
  have mans := sound.mans long
  have load := w.load_eq n long
  -- a worker is held by a submission, through its one runner or because it was handed over in the queue
  have single : Set.InjOn (fun v => (w.parent v).getD 0) (w.runners n long) := by
    intro r hr v hv same
    obtain ⟨t, mode, work, ordered, hired⟩ := sound.hired_of_runner hr
    obtain ⟨t', _, _, _, hired'⟩ := sound.hired_of_runner hv
    have same : (w.parent r).getD 0 = (w.parent v).getD 0 := same
    rw [hired, hired'] at same
    have same : t = t' := same
    exact (sound.fates t mode work ordered).sole hired (same ▸ hired')
  have apart : Disjoint (w.cluster.lane n long).granted.toFinset
      ((w.runners n long).image fun v => (w.parent v).getD 0) := by
    refine Finset.disjoint_left.mpr fun t ht hr => ?_
    obtain ⟨_, _, _, _, alone⟩ := sound.line (List.mem_append_right _ (List.mem_toFinset.mp ht))
    obtain ⟨r, hr, same⟩ := Finset.mem_image.mp hr
    obtain ⟨t', _, _, _, hired⟩ := sound.hired_of_runner hr
    rw [hired] at same
    have same : t' = t := same
    exact alone r (same ▸ hired)
  have granted := List.toFinset_card_of_nodup (List.nodup_append.mp mans.distinct).2.1
  have sum := mans.sum
  rw [load] at sum
  rw [sound.holders_eq, Finset.card_union_of_disjoint apart, Finset.card_image_of_injOn single, granted]
  have none : Hand.empty.workers n long = 0 := rfl
  rw [none] at sum
  omega

end Sound

end Workshare.Workshop
