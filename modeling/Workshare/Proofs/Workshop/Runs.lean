import Workshare.Proofs.Workshop.Fates

namespace Workshare

theorem Cluster.Lone.tend {n : NodeId} {c : Cluster} {q : Pool} (lone : c.Lone n q) {x : Chore} (idle : x.doer = none) :
    ∃ q', (c.tend n x).Lone n q' ∧ q'.startTimeout = q.startTimeout ∧ ∀ long, q'.lane long = q.lane long := by
  cases x with
  | submit mode work => exact ⟨q, lone, rfl, fun _ => rfl⟩
  | go t => cases idle
  | clock now timers => exact ⟨q, lone, rfl, fun _ => rfl⟩
  | queue ready front called => exact ⟨q, lone, rfl, fun _ => rfl⟩
  | release count => exact ⟨q, (Rests.release c count).lone q lone, rfl, fun _ => rfl⟩
  | register name handler =>
    obtain ⟨manager, book, limit, host, alone⟩ := lone
    refine ⟨{ q with handlers := q.handlers.insert name handler }, ⟨manager, book, limit, ?_, alone⟩, rfl, fun _ => rfl⟩
    show (c.register n name handler).host? n = _
    unfold register
    rw [host]
    exact (host?_setHost _ _).trans (if_pos rfl)

namespace Workshop

/-- A workshop of node `n`, which began with this pool and these numbers of workers. -/
structure Sound (w : Workshop) (n : NodeId) (p : Pool) (sizes : Bool → Nat) : Prop where
  lone : ∃ q, w.cluster.Lone n q ∧ q.startTimeout = p.startTimeout
  blank : ∀ v, w.cluster.fresh ≤ v → w.Blank v
  roots : ∀ t o, w.orders.get? t = some o → w.parent t = none
  fates : ∀ t mode work, w.orders.get? t = some (mode, work) → w.Fate n p t mode work
  staff : ∀ v task, w.task v = some task → ∃ t, (w.orders.get? t).isSome ∧ w.Of t v
  owners : ∀ i doer e, (i, doer, e) ∈ w.log → e.isEffect = false →
    ∃ v t, doer = some v ∧ (w.orders.get? t).isSome ∧ w.Of t v
  events : w.log.map (·.2.2) = w.cluster.events
  staffed : w.cluster.Staffed n sizes none .empty

variable {w w' : Workshop} {n : NodeId} {p q : Pool} {sizes : Bool → Nat} {t s r h v : Ticket} {mode : Mode}
  {work : Work} {task : Task} {y : Yield}

/-- A task is one of a single work. -/
theorem Of.unique {t' : Ticket} (of : w.Of t v) (of' : w.Of t' v) (root : w.parent t = none)
    (root' : w.parent t' = none) : t = t' := by
  rcases of with rfl | below | ⟨r, manned, below⟩
  · rcases of' with rfl | below' | ⟨r', manned', _⟩
    · rfl
    · rw [root] at below'
      cases below'
    · rw [root] at manned'
      cases manned'
  · rcases of' with rfl | below' | ⟨r', manned', below'⟩
    · rw [root'] at below
      cases below
    · rw [below] at below'
      exact Option.some.inj below'
    · rw [below] at manned'
      cases manned'
      rw [root] at below'
      cases below'
  · rcases of' with rfl | below' | ⟨r', manned', below'⟩
    · rw [root'] at manned
      cases manned
    · rw [manned] at below'
      cases below'
      rw [root'] at below
      cases below
    · rw [manned] at manned'
      cases manned'
      rw [below] at below'
      exact Option.some.inj below'

/-- What task `s` of a work can be, by its place. -/
inductive Shape (w : Workshop) (n : NodeId) (t : Ticket) (mode : Mode) (work : Work) (s : Ticket) : Task → Prop
  | submit : s = t → Shape w n t mode work s (.submit n mode work false)
  | queued {since deadline : Nat} : s = t →
      Shape w n t mode work s (.errand ⟨n, mode, work, .worker since deadline⟩ .caller)
  | awaiting {r : Ticket} : s = t → Shape w n t mode work s (.errand ⟨n, mode, work, .finish r⟩ .caller)
  | runner {waiter handler : Option Ticket} : w.parent s = some t →
      Shape w n t mode work s (.runner n work waiter handler)
  | handler {r : Ticket} {stage : HandlerStage} : w.parent s = some r → w.parent r = some t →
      Shape w n t mode work s (.handler n work (some r) stage)

theorem Shape.belongs (shape : w.Shape n t mode work s task) : task.Belongs n work := by
  cases shape with
  | submit _ => exact .submit mode
  | queued _ => exact .queued mode _ _
  | awaiting _ => exact .awaiting mode _
  | runner _ => exact .runner _ _
  | handler _ _ => exact .handler _ _

theorem Handling.shape {left : Option Verdict} (handling : w.Handling n work r s left) (manned : w.parent s = some r)
    (hired : w.parent r = some t) (there : w.task s = some task) : w.Shape n t mode work s task := by
  cases handling with
  | fresh own _ _ => rw [own] at there; cases there; exact .handler manned hired
  | going own _ _ _ _ => rw [own] at there; cases there; exact .handler manned hired
  | finished gone _ _ => rw [gone] at there; cases there

theorem Crew.shape {waiter : Option Ticket} {reported : Option Verdict} (crew : w.Crew n work waiter r reported)
    (hired : w.parent r = some t) (place : s = r ∨ w.parent s = some r) (there : w.task s = some task) :
    w.Shape n t mode work s task := by
  rcases place with rfl | manned
  · cases crew with
    | hired own _ _ => rw [own] at there; cases there; exact .runner hired
    | manned own _ _ _ => rw [own] at there; cases there; exact .runner hired
    | retired gone _ _ _ _ => rw [gone] at there; cases there
  · cases crew with
    | hired _ _ alone => exact absurd manned (alone s)
    | manned _ _ sole handling =>
      obtain rfl := (sole s).mp manned
      exact handling.shape manned hired there
    | retired _ _ sole ended _ =>
      obtain rfl := (sole s).mp manned
      rw [ended] at there
      cases there

theorem Front.shape {reported : Option Verdict} (front : w.Front n t mode work r reported)
    (there : w.task t = some task) : w.Shape n t mode work t task := by
  cases front with
  | awaits _ own _ _ _ => rw [own] at there; cases there; exact .awaiting rfl
  | ended _ gone _ _ => rw [gone] at there; cases there
  | begun _ gone _ _ _ => rw [gone] at there; cases there

theorem Fate.shape (fate : w.Fate n p t mode work) (of : w.Of t s) (there : w.task s = some task) :
    w.Shape n t mode work s task := by
  cases fate with
  | fresh own _ _ alone _ =>
    obtain rfl := of.of_alone alone
    rw [own] at there
    cases there
    exact .submit rfl
  | queued own _ _ alone _ _ =>
    obtain rfl := of.of_alone alone
    rw [own] at there
    cases there
    exact .queued rfl
  | rejected gone _ _ alone _ _ =>
    obtain rfl := of.of_alone alone
    rw [gone] at there
    cases there
  | accepted began crew front =>
    have hired := (began _).mpr rfl
    rcases of with rfl | below | ⟨r, manned, below⟩
    · exact front.shape there
    · exact crew.shape hired (.inl ((began s).mp below)) there
    · exact crew.shape hired (.inr ((began r).mp below ▸ manned)) there

/-- Task `s` goes on, which belongs to the work of task `t`, and this comes of it. -/
structure Move (w : Workshop) (n : NodeId) (p : Pool) (s : Ticket) (task : Task) (t : Ticket) (mode : Mode)
    (work : Work) (q : Pool) (y : Yield) : Prop where
  there : w.task s = some task
  ordered : w.orders.get? t = some (mode, work)
  of : w.Of t s
  shape : w.Shape n t mode work s task
  lone : w.cluster.Lone n q
  kin : q.startTimeout = p.startTimeout
  turnout : Cluster.Turnout n q s w.cluster task y
  yields : Cluster.Yields n s w.cluster (w.cluster.resume s task) y

theorem Move.goes (move : w.Move n p s task t mode work q y) : w.Goes (w.take n (.go s)) n s y :=
  goes_take move.there move.yields

/-- Only a work's own task and the one that holds its worker begin another one. -/
theorem Shape.begins (shape : w.Shape n t mode work s task) (turnout : Cluster.Turnout n q s w.cluster task y)
    (child : y.child.isSome) : s = t ∨ w.parent s = some t := by
  cases shape with
  | submit own => exact .inl own
  | queued own => exact .inl own
  | awaiting own => exact .inl own
  | runner hired => exact .inr hired
  | handler _ _ =>
    cases turnout with
    | seeks seeks => exact absurd seeks.isSeeker nofun
    | goes _ _ => cases child
    | ended => cases child

theorem events_take {x : Chore} (same : w.log.map (·.2.2) = w.cluster.events)
    (grown : w.cluster.events <+: (w.cluster.tend n x).events) :
    (w.take n x).log.map (·.2.2) = (w.take n x).cluster.events := by
  obtain ⟨news, events⟩ := grown
  show (w.log ++ ((w.cluster.tend n x).events.drop _).map _).map _ = (w.cluster.tend n x).events
  rw [← events, List.drop_left, List.map_append, same, List.map_map]
  exact congrArg (w.cluster.events ++ ·) (List.map_id news)

section Idle

variable {x : Chore} (idle : x.doer = none) (v : Ticket)

include idle

theorem heard_idle : (w.take n x).heard v = w.heard v := by
  have heard : (w.take n x).heard v = _ := heard_append w _ _ _ _ _ _ v
  rw [heard, filter_doer, idle, if_neg nofun, List.append_nil]

theorem asked_idle : (w.take n x).asked v = w.asked v := by
  show (if x.doer = some v ∧ _ then _ else _) = _
  rw [idle, if_neg fun h => nomatch h.1]

end Idle

theorem told_take {x : Chore} (answers : (w.cluster.tend n x).answers = w.cluster.answers) (v : Ticket) :
    (w.take n x).cluster.told v = w.cluster.told v := by
  show Cluster.told (w.cluster.tend n x) v = w.cluster.told v
  unfold Cluster.told
  rw [answers]

theorem take_go_absent (gone : w.task s = none) : w.take n (.go s) = w := by
  have gone : w.cluster.tasks.get? s = none := gone
  have idle : w.cluster.tend n (.go s) = w.cluster := by
    show w.cluster.poll s = _
    unfold Cluster.poll
    rw [gone]
  unfold take
  rw [idle, List.drop_length]
  obtain ⟨c, orders, log, asked, parent, due⟩ := w
  congr 1
  · exact List.append_nil log
  · funext v
    refine if_neg ?_
    rintro ⟨own, _, there⟩
    cases own
    unfold Table.contains at there
    rw [gone] at there
    cases there
  · funext v
    exact if_neg fun h => Nat.not_lt_of_le h.1 h.2
  · funext v
    show (if some s = some v then _ else _) = _
    split
    next own =>
      cases own
      unfold Cluster.looksUp?
      rw [gone]
      rfl
    next => rfl

namespace Goes

variable (goes : w.Goes w' n s y) (blank : w.Blank w.cluster.fresh)

include goes blank

theorem parent_kept (hv : w.parent v = some r) : w'.parent v = some r := by
  rw [goes.parent, if_neg fun h => ne_fresh blank hv h.1]
  exact hv

theorem of_kept (of : w.Of t v) : w'.Of t v := by
  rcases of with own | below | ⟨r, manned, below⟩
  · exact .inl own
  · exact .inr (.inl (goes.parent_kept blank below))
  · exact .inr (.inr ⟨r, goes.parent_kept blank manned, goes.parent_kept blank below⟩)

omit blank in
theorem fresh_le : w.cluster.fresh ≤ w'.cluster.fresh := by
  rw [goes.fresh]
  cases y.child with
  | none => exact Nat.le_refl _
  | some child => exact Nat.le_succ _

theorem blank_kept (there : w.task s = some task) (hv : w'.cluster.fresh ≤ v) (vacant : w.Blank v)
    (posted : y.verdicts.get? v = w.posted v) : w'.Blank v := by
  have other : v ≠ s := by
    rintro rfl
    rw [vacant.task] at there
    cases there
  have unborn : ¬ (v = w.cluster.fresh ∧ y.child.isSome) := by
    rintro ⟨rfl, born⟩
    obtain ⟨child, some⟩ := Option.isSome_iff_exists.mp born
    rw [goes.fresh, some] at hv
    exact Nat.not_succ_le_self _ hv
  refine ⟨?_, ?_, ?_, (goes.posted v).trans (posted.trans vacant.posted), ?_, ?_, ?_, ?_⟩
  · rw [goes.task, if_neg other, vacant.task]
    split
    next new =>
      cases born : y.child with
      | none => rfl
      | some child => exact absurd ⟨new, by rw [born]; rfl⟩ unborn
    next => rfl
  · rw [goes.heard, if_neg other, vacant.heard, List.append_nil]
  · rw [goes.told, if_neg other, vacant.told, List.append_nil]
  · rw [goes.asked, if_neg fun h => other h.1, vacant.asked]
  · rw [goes.parent, if_neg unborn, vacant.parent]
  · exact fun u hu => vacant.alone u ((goes.parent_old blank other u).mp hu)
  · rw [goes.orders, vacant.order]

end Goes

namespace Sound

theorem older (sound : w.Sound n p sizes) {o : Mode × Work} (ordered : w.orders.get? t = some o) :
    t < w.cluster.fresh := by
  refine Nat.lt_of_not_le fun late => ?_
  rw [(sound.blank t late).order] at ordered
  cases ordered

theorem dated (sound : w.Sound n p sizes) : w.cluster.Dated :=
  fun v hv => (sound.blank v hv).task

theorem old (sound : w.Sound n p sizes) {o : Mode × Work} (ordered : w.orders.get? t = some o) (of : w.Of t v) :
    v < w.cluster.fresh := by
  refine Nat.lt_of_not_le fun late => ?_
  rcases of with rfl | below | ⟨r, manned, _⟩
  · exact absurd (sound.older ordered) (Nat.not_lt_of_le late)
  · rw [(sound.blank v late).parent] at below
    cases below
  · rw [(sound.blank v late).parent] at manned
    cases manned

theorem move (sound : w.Sound n p sizes) (there : w.task s = some task) :
    ∃ t mode work q y, w.Move n p s task t mode work q y := by
  obtain ⟨q, lone, kin⟩ := sound.lone
  obtain ⟨t, mine, of⟩ := sound.staff s task there
  obtain ⟨⟨mode, work⟩, ordered⟩ := Option.isSome_iff_exists.mp mine
  have shape := (sound.fates t mode work ordered).shape of there
  obtain ⟨y, turnout, yields⟩ := Cluster.turnout_resume lone shape.belongs
  exact ⟨t, mode, work, q, y, there, ordered, of, shape, lone, kin, turnout, yields⟩

/-- In a chore no task goes on, or nothing happens, or a task of a work goes on. -/
theorem turns (sound : w.Sound n p sizes) (x : Chore) : x.doer = none ∨ w.take n x = w ∨
    ∃ s task t mode work q y, x = .go s ∧ w.Move n p s task t mode work q y := by
  cases x with
  | go s =>
    cases there : w.task s with
    | none => exact .inr (.inl (take_go_absent there))
    | some task =>
      obtain ⟨t, mode, work, q, y, move⟩ := sound.move there
      exact .inr (.inr ⟨s, task, t, mode, work, q, y, rfl, move⟩)
  | _ => exact .inl rfl

section Go

variable (sound : w.Sound n p sizes) (move : w.Move n p s task t mode work q y)

include sound move

theorem further : (w.take n (.go s)).Fate n p t mode work ∧ w.Spares t y.verdicts :=
  (sound.fates t mode work move.ordered).go move.lone move.kin (sound.roots t _ move.ordered)
    (Nat.ne_of_lt (sound.older move.ordered)) (sound.blank _ (Nat.le_refl _)) move.of move.there move.turnout move.goes

theorem fates_go {t' : Ticket} {mode' : Mode} {work' : Work} (ordered : w.orders.get? t' = some (mode', work')) :
    (w.take n (.go s)).Fate n p t' mode' work' := by
  obtain ⟨further, spares⟩ := sound.further move
  by_cases same : t' = t
  · subst same
    rw [move.ordered] at ordered
    cases ordered
    exact further
  · have apart : ∀ v, w.Of t' v → ¬ w.Of t v := fun v hv own =>
      same (hv.unique own (sound.roots t' _ ordered) (sound.roots t _ move.ordered))
    have stays : ∀ v, w.Of t' v → w.Stays (w.take n (.go s)) v := by
      intro v hv
      have older := Nat.ne_of_lt (sound.old ordered hv)
      refine move.goes.stays (sound.blank _ (Nat.le_refl _)) ?_ older (spares v (apart v hv))
      rintro rfl
      exact apart v hv move.of
    have passes : (w.cluster.lane n work'.longRunning).Passes s
        ((w.take n (.go s)).cluster.lane n work'.longRunning) := by
      rw [move.lone.lane, move.goes.lane]
      exact move.turnout.passes move.shape.belongs _
    refine (sound.fates t' mode' work' ordered).kept stays ?_ passes
    rintro rfl
    exact apart s (.inl rfl) move.of

theorem staff_go {left : Task} (there : (w.take n (.go s)).task v = some left) :
    ∃ t, (w.orders.get? t).isSome ∧ (w.take n (.go s)).Of t v := by
  have blank := sound.blank _ (Nat.le_refl _)
  have mine : (w.orders.get? t).isSome := by rw [move.ordered]; rfl
  rw [move.goes.task] at there
  split at there
  next own => exact ⟨t, mine, own ▸ move.goes.of_kept blank move.of⟩
  next =>
    split at there
    next new =>
      rw [new, blank.task, Option.or_none] at there
      have child : y.child.isSome := by rw [there]; rfl
      have born : (w.take n (.go s)).parent v = some s := (move.goes.parent v).trans (if_pos ⟨new, child⟩)
      rcases move.shape.begins move.turnout child with rfl | hired
      · exact ⟨s, mine, .inr (.inl born)⟩
      · exact ⟨t, mine, .inr (.inr ⟨s, born, move.goes.parent_kept blank hired⟩)⟩
    next =>
      obtain ⟨t', ordered, of⟩ := sound.staff v left there
      exact ⟨t', ordered, move.goes.of_kept blank of⟩

theorem owners_go {i : Nat} {doer : Option Ticket} {e : Event} (he : (i, doer, e) ∈ (w.take n (.go s)).log)
    (loud : e.isEffect = false) : ∃ v t, doer = some v ∧ (w.orders.get? t).isSome ∧ (w.take n (.go s)).Of t v := by
  have blank := sound.blank _ (Nat.le_refl _)
  rcases List.mem_append.mp he with he | he
  · obtain ⟨v, t', doer, ordered, of⟩ := sound.owners i doer e he loud
    exact ⟨v, t', doer, ordered, move.goes.of_kept blank of⟩
  · obtain ⟨_, _, he⟩ := List.mem_map.mp he
    cases he
    exact ⟨s, t, rfl, by rw [move.ordered]; rfl, move.goes.of_kept blank move.of⟩

end Go

theorem go (sound : w.Sound n p sizes) (s : Ticket) : (w.take n (.go s)).Sound n p sizes := by
  cases there : w.task s with
  | none =>
    rw [take_go_absent there]
    exact sound
  | some task =>
    obtain ⟨t, mode, work, q, y, move⟩ := sound.move there
    have goes := move.goes
    have kin := (move.turnout.startTimeout move.shape.belongs).trans move.kin
    refine ⟨⟨y.pool, goes.lone, kin⟩, ?_, ?_, fun _ _ _ => sound.fates_go move, fun _ _ => sound.staff_go move,
      fun _ _ _ => sound.owners_go move, ?_, ?_⟩
    · intro v hv
      have late := Nat.le_trans goes.fresh_le hv
      exact goes.blank_kept (sound.blank _ (Nat.le_refl _)) there hv (sound.blank v late)
        ((sound.further move).2 v fun own => Nat.not_lt_of_le late (sound.old move.ordered own))
    · intro t' o ordered
      have ordered : w.orders.get? t' = some o := ordered
      rw [goes.parent, if_neg fun h => Nat.ne_of_lt (sound.older ordered) h.1]
      exact sound.roots t' o ordered
    · refine events_take sound.events ?_
      obtain ⟨news, events, _⟩ := move.yields.events
      rw [tend_go there, events]
      exact List.prefix_append _ _
    · show Cluster.Staffed n sizes none (w.cluster.tend n (.go s)) .empty
      rw [tend_go there]
      exact sound.staffed.resume sound.dated there

theorem parent_idle (sound : w.Sound n p sizes) {x : Chore} (idle : x.doer = none) (v : Ticket) :
    (w.take n x).parent v = w.parent v := by
  show (if w.cluster.fresh ≤ v ∧ _ then x.doer else w.parent v) = _
  split
  next late => rw [idle, (sound.blank v late.1).parent]
  next => rfl

theorem stays (sound : w.Sound n p sizes) {x : Chore} (idle : x.doer = none) {v : Ticket}
    (task : (w.cluster.tend n x).tasks.get? v = w.task v)
    (verdicts : (w.cluster.tend n x).verdicts = w.cluster.verdicts)
    (answers : (w.cluster.tend n x).answers = w.cluster.answers) : w.Stays (w.take n x) v := by
  refine ⟨⟨task, heard_idle idle v, told_take answers v, ?_, asked_idle idle v, fun u => ?_⟩,
    congrArg (Table.get? · v) verdicts⟩
  · show (if x.doer = some v then _ else _) = _
    rw [idle, if_neg nofun]
  · rw [sound.parent_idle idle]

theorem of_idle (sound : w.Sound n p sizes) {x : Chore} (idle : x.doer = none) : (w.take n x).Of t v ↔ w.Of t v := by
  unfold Of
  simp only [sound.parent_idle idle]

theorem owners_idle (sound : w.Sound n p sizes) {x : Chore} (idle : x.doer = none)
    (silent : ∃ news, (w.cluster.tend n x).events = w.cluster.events ++ news ∧ news.filter (¬ ·.isEffect) = [])
    (orders : ∀ t, (w.orders.get? t).isSome → ((w.take n x).orders.get? t).isSome) (i : Nat) (doer : Option Ticket)
    (e : Event) (he : (i, doer, e) ∈ (w.take n x).log) (loud : e.isEffect = false) :
    ∃ v t, doer = some v ∧ ((w.take n x).orders.get? t).isSome ∧ (w.take n x).Of t v := by
  obtain ⟨news, events, silent⟩ := silent
  rcases List.mem_append.mp he with he | he
  · obtain ⟨v, t, own, ordered, of⟩ := sound.owners i doer e he loud
    exact ⟨v, t, own, orders t ordered, (sound.of_idle idle).mpr of⟩
  · obtain ⟨e', there, he⟩ := List.mem_map.mp he
    cases he
    rw [events, List.drop_left] at there
    have quiet := List.filter_eq_nil_iff.mp silent e there
    simp [loud] at quiet

theorem submit (sound : w.Sound n p sizes) (mode : Mode) (work : Work) :
    (w.take n (.submit mode work)).Sound n p sizes := by
  obtain ⟨q, lone, kin⟩ := sound.lone
  have vacant := sound.blank _ (Nat.le_refl _)
  have task : ∀ v, (w.take n (.submit mode work)).task v =
      if v = w.cluster.fresh then some (.submit n mode work false) else w.task v := fun v => Table.get?_insert _ _ _ _
  have orders : ∀ v, (w.take n (.submit mode work)).orders.get? v =
      if v = w.cluster.fresh then some (mode, work) else w.orders.get? v := fun v => Table.get?_insert _ _ _ _
  have stays : ∀ v, v ≠ w.cluster.fresh → w.Stays (w.take n (.submit mode work)) v :=
    fun v old => sound.stays rfl ((task v).trans (if_neg old)) rfl rfl
  have grown : ∀ t, (w.orders.get? t).isSome → ((w.take n (.submit mode work)).orders.get? t).isSome := by
    intro t ordered
    rw [orders]
    split
    next => rfl
    next => exact ordered
  refine ⟨⟨q, lone, kin⟩, ?_, ?_, ?_, ?_, sound.owners_idle rfl ⟨[], (List.append_nil _).symm, rfl⟩ grown,
    events_take sound.events (List.prefix_refl _), ?_⟩
  · intro v hv
    have late := Nat.le_of_succ_le hv
    have old : v ≠ w.cluster.fresh := Nat.ne_of_gt hv
    have blank := sound.blank v late
    have same := stays v old
    exact ⟨same.task.trans blank.task, same.heard.trans blank.heard, same.told.trans blank.told,
      same.posted.trans blank.posted, same.asked.trans blank.asked, (sound.parent_idle rfl v).trans blank.parent,
      same.alone blank.alone, (orders v).trans ((if_neg old).trans blank.order)⟩
  · intro t o ordered
    rw [sound.parent_idle rfl]
    rw [orders] at ordered
    split at ordered
    next new => rw [new]; exact vacant.parent
    next => exact sound.roots t o ordered
  · intro t mode' work' ordered
    rw [orders] at ordered
    split at ordered
    next new =>
      cases ordered
      subst new
      refine .fresh ((task _).trans (if_pos rfl)) ((heard_idle rfl _).trans vacant.heard)
        ((told_take rfl _).trans vacant.told) ?_ ((asked_idle rfl _).trans vacant.asked)
      intro u
      rw [sound.parent_idle rfl]
      exact vacant.alone u
    next old =>
      have each : ∀ v, w.Of t v → w.Stays (w.take n (.submit mode work)) v :=
        fun v hv => stays v (Nat.ne_of_lt (sound.old ordered hv))
      exact (sound.fates t mode' work' ordered).kept each (Ne.symm old) (.refl _)
  · intro v left hv
    rw [task] at hv
    split at hv
    next new => exact ⟨v, by rw [orders, if_pos new]; rfl, .inl rfl⟩
    next =>
      obtain ⟨t, ordered, of⟩ := sound.staff v left hv
      exact ⟨t, grown t ordered, (sound.of_idle rfl).mpr of⟩
  · exact sound.staffed.still rfl sound.dated nofun fun _ => .spawn rfl

theorem lane_idle (sound : w.Sound n p sizes) {x : Chore} (idle : x.doer = none) (long : Bool) :
    (w.take n x).cluster.lane n long = w.cluster.lane n long := by
  obtain ⟨q, before, _⟩ := sound.lone
  obtain ⟨q', after, _, lanes⟩ := before.tend idle
  exact (after.lane long).trans ((lanes long).trans (before.lane long).symm)

theorem aside (sound : w.Sound n p sizes) {x : Chore} (idle : x.doer = none) (nobody : x.order? = none)
    (tasks : (w.cluster.tend n x).tasks = w.cluster.tasks) (fresh : (w.cluster.tend n x).fresh = w.cluster.fresh)
    (verdicts : (w.cluster.tend n x).verdicts = w.cluster.verdicts)
    (answers : (w.cluster.tend n x).answers = w.cluster.answers)
    (silent : ∃ news, (w.cluster.tend n x).events = w.cluster.events ++ news ∧ news.filter (¬ ·.isEffect) = []) :
    (w.take n x).Sound n p sizes := by
  obtain ⟨q, before, kin⟩ := sound.lone
  obtain ⟨q', after, kin', lanes⟩ := before.tend idle
  have stays : ∀ v, w.Stays (w.take n x) v :=
    fun v => sound.stays idle (congrArg (Table.get? · v) tasks) verdicts answers
  have orders : (w.take n x).orders = w.orders := by
    unfold take
    rw [nobody]
  refine ⟨⟨q', after, kin'.trans kin⟩, ?_, ?_, ?_, ?_, sound.owners_idle idle silent ?_, ?_, ?_⟩
  · intro v hv
    have hv : (w.cluster.tend n x).fresh ≤ v := hv
    rw [fresh] at hv
    have blank := sound.blank v hv
    have same := stays v
    exact ⟨same.task.trans blank.task, same.heard.trans blank.heard, same.told.trans blank.told,
      same.posted.trans blank.posted, same.asked.trans blank.asked, (sound.parent_idle idle v).trans blank.parent,
      same.alone blank.alone, by rw [orders, blank.order]⟩
  · intro t o ordered
    rw [sound.parent_idle idle]
    rw [orders] at ordered
    exact sound.roots t o ordered
  · intro t mode work ordered
    rw [orders] at ordered
    refine (sound.fates t mode work ordered).kept (fun v _ => stays v) (s := t + 1) (Nat.succ_ne_self t) ?_
    rw [sound.lane_idle idle]
    exact .refl _
  · intro v left hv
    obtain ⟨t, ordered, of⟩ := sound.staff v left ((stays v).task.symm.trans hv)
    exact ⟨t, by rw [orders]; exact ordered, (sound.of_idle idle).mpr of⟩
  · intro t ordered
    rw [orders]
    exact ordered
  · refine events_take sound.events ?_
    obtain ⟨news, events, _⟩ := silent
    rw [events]
    exact List.prefix_append _ _
  · obtain ⟨pool, executor, mans⟩ := sound.staffed
    rw [before.executor?] at executor
    cases executor
    refine ⟨q', after.executor?, fun long => ?_⟩
    rw [lanes]
    exact (mans long).still (P := fun _ => False) (.of_eq tasks fresh answers) sound.dated nofun (fun _ no => no.elim) rfl id id

theorem register (sound : w.Sound n p sizes) (name : String) (handler : Handler) :
    (w.take n (.register name handler)).Sound n p sizes := by
  have same : ∀ c : Cluster, (c.register n name handler).tasks = c.tasks ∧ (c.register n name handler).fresh = c.fresh ∧
      (c.register n name handler).verdicts = c.verdicts ∧ (c.register n name handler).answers = c.answers ∧
      (c.register n name handler).events = c.events := by
    intro c
    unfold Cluster.register
    split
    next => exact ⟨rfl, rfl, rfl, rfl, rfl⟩
    next => exact ⟨rfl, rfl, rfl, rfl, rfl⟩
  obtain ⟨tasks, fresh, verdicts, answers, events⟩ := same w.cluster
  exact sound.aside rfl rfl tasks fresh verdicts answers ⟨[], events.trans (List.append_nil _).symm, rfl⟩

theorem take (sound : w.Sound n p sizes) (x : Chore) : (w.take n x).Sound n p sizes := by
  cases x with
  | submit mode work => exact sound.submit mode work
  | go t => exact sound.go t
  | clock now timers => exact sound.aside rfl rfl rfl rfl rfl rfl ⟨[], (List.append_nil _).symm, rfl⟩
  | queue ready front called => exact sound.aside rfl rfl rfl rfl rfl rfl ⟨[], (List.append_nil _).symm, rfl⟩
  | release count =>
    have rests := Cluster.Rests.release (n := n) w.cluster count
    exact sound.aside rfl rfl rests.tasks rests.fresh rests.verdicts rests.answers rests.events
  | register name handler => exact sound.register name handler

theorem run (sound : w.Sound n p sizes) (chores : List Chore) : (w.run n chores).Sound n p sizes := by
  induction chores generalizing w with
  | nil => exact sound
  | cons x chores ih => exact ih (sound.take x)

end Sound

end Workshop

end Workshare
