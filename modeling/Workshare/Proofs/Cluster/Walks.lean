import Workshare.Proofs.Cluster.Strides

namespace Workshare

/-- What is due at node `n` by what is in hand. -/
def Hand.due (n : NodeId) : Hand → Int
  | .awaiting p => if p = n then -1 else 0
  | .running p _ => if p = n then 1 else 0
  | .returned p _ => if p = n then 1 else 0
  | _ => 0

theorem Hand.due_of {n p : NodeId} {x : Hand} (hx : x.Of p) (hp : p ≠ n) : x.due n = 0 := by
  cases x with
  | awaiting q => exact if_neg fun e => hp (hx ▸ e)
  | running q long => exact if_neg fun e => hp (hx ▸ e)
  | returned q long => exact if_neg fun e => hp (hx ▸ e)
  | _ => rfl

theorem Errand.due_eq (n : NodeId) (e : Errand) : e.due n = e.hand.due n := by
  unfold Errand.due Errand.hand
  cases e.wait <;> rfl

theorem Task.due_eq (n : NodeId) (task : Task) : task.due n = task.hand.due n := by
  cases task with
  | errand e client => exact e.due_eq n
  | call x purpose =>
    obtain ⟨peer, target, limit, deadline, exchange⟩ := x
    cases exchange with
    | travelling arrival op body => rfl
    | serving e => exact e.due_eq n
  | _ => rfl

namespace Cluster

variable {T : Traffic} {A : Audience} {n : NodeId} {t : Ticket} {c c' c'' : Cluster} {due due' due'' : Int}

theorem strides_post (sender : NodeId) (targets : List String) {op : UInt16} {body : List UInt8}
    (sent : ∀ target, c.net.connected.contains target → Reads (T.sent target) op body) :
    Strides T n (c, due) (c.post sender targets op body, due) := by
  unfold post
  induction targets generalizing c with
  | nil => exact .refl _
  | cons target targets ih =>
    rw [List.foldl_cons]
    cases hr : c.net.route sender.text target with
    | error e => exact ih sent
    | ok _ =>
      have there : c.net.connected.contains target := by
        unfold Loopback.route at hr
        split at hr
        next => cases hr
        next =>
          split at hr
          next h => exact h
          next => cases hr
      have spawned : Strides T n (c, due) ((c.spawn (.post target op body (c.net.delay target))).1, due) :=
        .spawn (sent target there) rfl
      exact spawned.trans (ih sent)

theorem strides_lane {α : Type} {p : NodeId} {long : Bool} {f : Lane → Lane × α} {a : Option α} (due : Int)
    (hc : c.withLane p long f = (c', a)) : Strides T n (c, due) (c', due) := by
  have changed : Strides T n (c, due) ((c.withLane p long f).1, due) := .withLane p long f
  rwa [hc] at changed

/-- A work that is hired for goes over to the task that runs it. -/
theorem strides_hire (p : NodeId) (work : Work) (waiter : Option Ticket) :
    Strides T n (c, 0) ((c.spawn (.runner p work waiter none)).1, if p = n then -1 else 0) := by
  have hired : Strides T n (c, 0) ((c.spawn (.runner p work waiter none)).1, 0 - if p = n then 1 else 0) :=
    .single (.spawn trivial)
  have spent : (0 - if p = n then (1 : Int) else 0) = if p = n then -1 else 0 := by split <;> rfl
  rwa [spent] at hired

theorem strides_drop (p : NodeId) (work : Work) :
    Strides T n (c, if p = n then -1 else 0) (c.record (.dropped p work), 0) := by
  have dropped : Strides T n (c, if p = n then -1 else 0) (c.record (.dropped p work), _) := .single (.record _)
  have waived : (if p = n then (-1 : Int) else 0) + (if p = n then 1 else 0) = 0 := by split <;> rfl
  dsimp only [Event.waived] at dropped
  rwa [waived] at dropped

theorem not_kept {p : NodeId} (bare : c.Poolless p) : ¬ c.Kept p := by
  rintro ⟨h, m, pool, hh, _, hx⟩
  refine bare pool ?_
  rw [executor?, hh, ← hx]
  rfl

section Paces

variable (plain : ∀ r, r.isMembership = false → T.cast r)

include plain

theorem strides_bare {p : NodeId} (bare : c.Poolless p) {move : Move} (inner : move.isInner) :
    Strides T n (c, due) (c.tell p (·.move move), due) := by
  have told : Strides T n (c, due) (c.tell p (·.move move), _) := strides_tell plain p fun m => .move m inner
  by_cases hp : p = n
  · exact told.of_unkept (hp ▸ not_kept bare) _ _
  · rwa [if_neg hp] at told

theorem strides_counted (p : NodeId) {act : Manager → Manager} {weight : Int}
    (h : ∀ m : Manager, m.Stirs (act m) weight) (paid : (if p = n then due - weight else due) = due') :
    Strides T n (c, due) (c.tell p act, due') := by
  have told : Strides T n (c, due) (c.tell p act, _) := strides_tell plain p h
  rwa [paid] at told

theorem strides_submission {p : NodeId} {mode : Mode} {work : Work} {answer : Option (Except Abort Placement)}
    (hc : c.manage p (·.submit (c.free p) mode work) = (c', answer)) : Strides T n (c, due) (c', due) := by
  have managed : Strides T n (c, due) ((c.manage p (·.submit (c.free p) mode work)).1, due) :=
    strides_manage_idle plain p fun m => Manager.Stirs.move m (x := .submit (c.free p) mode work) rfl
  rwa [hc] at managed

theorem strides_reject (p : NodeId) (mode : Mode) (reason : String) :
    Strides T n (c, 0) (c.tell p (·.settle mode (.error (.rejected reason))), 0) := by
  have light : (mode.admission (.error (.rejected reason))).weight = 0 := by cases mode <;> rfl
  refine strides_counted plain p (fun m => .move m (x := .settle mode (.error (.rejected reason))) rfl) ?_
  rw [Move.weight, light]
  split <;> rfl

/-- What becomes of a work that was not rejected pays for it. -/
theorem strides_report (p : NodeId) (mode : Mode) {outcome : Outcome}
    (admitted : ∀ reason, outcome ≠ .error (.rejected reason)) :
    Strides T n (c, if p = n then -1 else 0) (c.tell p (·.settle mode outcome), 0) := by
  have weight : (mode.admission outcome).weight = -1 := by
    unfold Mode.admission
    split
    next reason => exact absurd rfl (admitted reason)
    next => cases mode <;> rfl
  refine strides_counted plain p (fun m => .move m (x := .settle mode outcome) rfl) ?_
  rw [Move.weight, weight]
  split <;> rfl

/-- A pace is made of strides. -/
theorem strides_pace {s s' : Cluster × Hand} (pace : Pace T A t s s') :
    Strides T n (s.1, s.2.due n) (s'.1, s'.2.due n) := by
  cases pace with
  | aside same => exact .aside same
  | note he =>
    rename_i c x e
    refine .record ?_
    cases e <;> first | rfl | cases he
  | spawn carries _ empty => exact .spawn carries (by rw [Task.due_eq, empty]; rfl)
  | ask hc => rename_i got; cases got <;> exact strides_lane 0 hc
  | collect hc => rename_i got; cases got <;> exact strides_lane 0 hc
  | wait => exact .refl _
  | quit hc => exact strides_lane 0 hc
  | hire p work waiter => exact strides_hire p work waiter
  | giveBack hc => exact strides_lane _ hc
  | drop p work => exact strides_drop p work
  | vain bare hx hy =>
    rename_i c p x y
    by_cases hp : p = n
    · exact .single (.unkept _ (hp ▸ not_kept bare))
    · show Strides T n (c, x.due n) (c, y.due n)
      rw [Hand.due_of hx hp, Hand.due_of hy hp]
      exact .refl _
  | handOver p mode work =>
    exact strides_manage_idle plain p fun m => Manager.Stirs.move m (x := .submitHere _ mode work) rfl
  | keep hc _ => exact strides_submission plain hc
  | pass hc _ => exact strides_submission plain hc
  | reject p mode reason => exact strides_reject plain p mode reason
  | report p mode admitted => exact strides_report plain p mode admitted
  | complete p long success =>
    refine strides_counted plain p (fun m => .move m (x := .complete _ long success) rfl) ?_
    dsimp only [Move.weight, Hand.due]
    split <;> rfl
  | scripted bare _ inner => exact strides_bare plain bare inner
  | write p calls => exact .refl _
  | post sender targets sent => exact strides_post sender targets sent
  | discard => exact .refl _
  | look p => exact strides_manage_idle plain p fun m => .refl m
  | learn _ => exact strides_manage_idle plain _ fun m => .move m (x := .hear (.free _ _ _)) rfl
  | hear hd hn _ =>
    rename_i r notice _
    refine strides_manage_idle plain _ fun m => .move m (x := .hear notice) ?_
    -- no request brings news of members as a notice
    cases r <;> first | (cases hn; rfl) | cases hn
  | join _ served => exact .single (.join served)
  | leave _ served => exact .single (.leave served)

theorem strides_paces {s s' : Cluster × Hand} (paces : Paces T A t s s') :
    Strides T n (s.1, s.2.due n) (s'.1, s'.2.due n) := by
  induction paces with
  | refl => exact .refl _
  | tail _ last ih => exact ih.trans (strides_pace plain last)

end Paces

/-- At the end of a go the task is parked, with what it owes, or it is over and owes nothing. -/
def Walks (T : Traffic) (n : NodeId) (t : Ticket) (s : Cluster × Int) (c' : Cluster) : Prop :=
  (∃ c₁ left, Strides T n s (c₁, left.due n) ∧ left.Carries T ∧ c' = c₁.park t left) ∨
    ∃ c₁ said, Strides T n s (c₁, 0) ∧ c' = c₁.finish t said

/-- A go at a task is made of strides. -/
theorem walks_resume (plain : ∀ r, r.isMembership = false → T.cast r) (t : Ticket) {task : Task}
    (sent : ∀ target r, c.net.connected.contains target → T.cast r → T.sent target r) (carries : task.Carries T)
    (served : ∀ target op body, task.handed? c.now = some (target, op, body) → T.Allows ⟨target⟩ op body) :
    Walks T n t (c, task.due n) (c.resume t task) := by
  have treads : Treads T .any t (c, task.hand) (c.resume t task) :=
    treads_resume sent carries task.heeds_any served fun _ _ _ _ _ _ _ _ => trivial
  rw [Task.due_eq]
  rcases treads with ⟨c₁, left, paces, carries, _, parked⟩ | ⟨c₁, said, paces, ended⟩
  · refine .inl ⟨c₁, left, ?_, carries, parked⟩
    rw [Task.due_eq]
    exact strides_paces plain paces
  · exact .inr ⟨c₁, said, strides_paces plain paces, ended⟩

end Cluster

end Workshare
