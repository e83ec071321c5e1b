import Workshare.Proofs.Cluster.Lasting

namespace Workshare.Cluster

variable {c c' : Cluster} {t v : Ticket}

/-- Whatever every pace keeps is kept up to the end of a go. -/
theorem resume_keeps {I : Cluster → Prop} (pace : ∀ s s', Pace .any .any t s s' → I s.1 → I s'.1) (h : I c)
    (task : Task) : ∃ c₁, I c₁ ∧ ((∃ left, c.resume t task = c₁.park t left) ∨ ∃ said, c.resume t task = c₁.finish t said) := by
  have kept {s s' : Cluster × Hand} (paces : Paces .any .any t s s') (h : I s.1) : I s'.1 := by
    induction paces with
    | refl => exact h
    | tail _ last ih => exact pace _ _ last ih
  rcases treads_any c t task with ⟨c₁, left, paces, _, _, parked⟩ | ⟨c₁, said, paces, ended⟩
  · exact ⟨c₁, kept paces h, .inl ⟨left, parked⟩⟩
  · exact ⟨c₁, kept paces h, .inr ⟨said, ended⟩⟩

theorem grows_resume (c : Cluster) (t : Ticket) (task : Task) : ∃ c₁, Grows (fun _ => True) c c₁ ∧
    ((∃ left, c.resume t task = c₁.park t left) ∨ ∃ said, c.resume t task = c₁.finish t said) :=
  resume_keeps (fun _ _ pace h => h.trans pace.grows_any) (.refl c) task

/-- Nobody answers while an errand is run. -/
theorem Fares.answers {T : Traffic} {A : Audience} {α : Type} {s : Cluster × Hand} {r : Cluster × Progress Errand α}
    (fares : Fares T A t s r) : r.1.answers = s.1.answers := by
  obtain ⟨c', progress⟩ := r
  cases progress with
  | waits e => exact (Paces.grows fares).answers
  | ends _ => exact (Paces.grows fares).answers

theorem told_congr (same : c'.answers = c.answers) (v : Ticket) : c'.told v = c.told v := by
  unfold told
  rw [same]

/-- Task `v` is where it was, and has said nothing more. -/
structure Spares (v : Ticket) (c c' : Cluster) : Prop where
  fresh : c.fresh ≤ c'.fresh
  task : c'.tasks.get? v = c.tasks.get? v
  told : c'.told v = c.told v

theorem Grows.spares {P : Task → Prop} (grows : Grows P c c') (young : v < c.fresh) : Spares v c c' :=
  ⟨grows.fresh, grows.kept v young, told_congr grows.answers v⟩

namespace Spares

theorem park (h : Spares v c c') (other : v ≠ t) (left : Task) : Spares v c (c'.park t left) :=
  ⟨h.fresh, ((Table.get?_insert _ _ _ _).trans (if_neg other)).trans h.task, h.told⟩

theorem finish (h : Spares v c c') (other : v ≠ t) (said : Option Answer) : Spares v c (c'.finish t said) := by
  have mine : ∀ e ∈ (said.map (t, ·)).toList, some t = some e.1 := by
    intro e he
    cases said with
    | none => cases he
    | some a => cases List.mem_singleton.mp he; rfl
  have silent : (c'.finish t said).told v = c'.told v :=
    Course.told_of_others rfl mine fun same => other (Option.some.inj same).symm
  exact ⟨h.fresh, ((Table.get?_erase _ _ _).trans (if_neg other)).trans h.task, silent.trans h.told⟩

end Spares

theorem fresh_resume (c : Cluster) (t : Ticket) (task : Task) : c.fresh ≤ (c.resume t task).fresh := by
  obtain ⟨c₁, grows, ⟨left, same⟩ | ⟨said, same⟩⟩ := grows_resume c t task
  · rw [same]
    exact grows.fresh
  · rw [same]
    exact grows.fresh

theorem fresh_poll (c : Cluster) (t : Ticket) : c.fresh ≤ (c.poll t).fresh := by
  unfold poll
  split
  next task _ => exact fresh_resume c t task
  next => exact Nat.le_refl _

theorem spares_resume (young : v < c.fresh) (other : v ≠ t) (task : Task) : Spares v c (c.resume t task) := by
  obtain ⟨c₁, grows, ⟨left, same⟩ | ⟨said, same⟩⟩ := grows_resume c t task
  · rw [same]
    exact (grows.spares young).park other left
  · rw [same]
    exact (grows.spares young).finish other said

/-- A number is given to a task that the outside waits for. -/
def numbered (c : Cluster) : Cluster :=
  { c with fresh := c.fresh + 1, front := some c.fresh, called := false }

theorem summon_eq (c : Cluster) (task : Task) : c.summon task = c.numbered.resume c.fresh task := rfl

theorem fresh_summon (c : Cluster) (task : Task) : c.fresh < (c.summon task).fresh :=
  Nat.lt_of_lt_of_le (Nat.lt_succ_self _) (fresh_resume c.numbered c.fresh task)

theorem spares_summon (young : v < c.fresh) (task : Task) : Spares v c (c.summon task) := by
  have called : Spares v c.numbered (c.summon task) :=
    spares_resume (Nat.lt_succ_of_lt young) (Nat.ne_of_lt young) task
  exact ⟨Nat.le_of_succ_le called.fresh, called.task, called.told⟩

theorem spares_poll (young : v < c.fresh) (other : v ≠ t) : Spares v c (c.poll t) := by
  unfold poll
  split
  next task _ => exact spares_resume young other task
  next => exact ⟨Nat.le_refl _, rfl, rfl⟩

/-- Whatever happens, a task is spared unless it goes on itself. -/
theorem spares_undergo (young : v < c.fresh) {x : Occurrence} (other : ∀ inner, x ≠ .deed (.go v) inner) :
    Spares v c (c.undergo x) := by
  cases x with
  | deed d inner =>
    by_cases free : ∃ w, d = .begin w
    · obtain ⟨w, rfl⟩ := free
      exact spares_summon young (w.task c.now)
    by_cases idle : ∃ t, d = .go t
    · obtain ⟨t, rfl⟩ := idle
      refine spares_poll young fun same => ?_
      subst same
      exact other inner rfl
    have drifts : Drifts .any c (c.does d) := drifts_does inner (fun w e => free ⟨w, e⟩) (fun t e => idle ⟨t, e⟩)
      (fun _ _ _ _ => trivial) fun _ _ _ _ => trivial
    exact drifts.grows.spares young
  | message n op body => exact spares_summon young (.serve n op body)
  | view n members =>
    have drifts : Drifts .any c (c.onView n members) := .single (.view trivial)
    exact drifts.grows.spares young

end Workshare.Cluster
