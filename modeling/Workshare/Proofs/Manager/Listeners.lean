import Workshare.Manager.Submission

namespace Workshare

namespace Listener

def hear : Listener → Notice → Listener
  | .statistics, _ => .statistics
  | .waterMark tag mark, notice => .waterMark tag (mark.hear notice)
  | .external tag, _ => .external tag

/-- What the statistics become when this listener hears a notice. -/
def teach (l : Listener) (notice : Notice) (s : Statistics) : Statistics :=
  match l with
  | .statistics => s.hear notice
  | .waterMark _ _ => s
  | .external _ => s

/-- The notification that a listener from outside gets. -/
def notification? (l : Listener) (notice : Notice) : Option Effect :=
  l.tag?.map (.notify · notice)

theorem hear_eq_statistics {l : Listener} {notice : Notice} :
    l.hear notice = .statistics ↔ l = .statistics := by
  cases l <;> simp [hear]

theorem teach_of_ne {l : Listener} (h : l ≠ .statistics) (notice : Notice) (s : Statistics) :
    l.teach notice s = s := by
  cases l with
  | statistics => exact absurd rfl h
  | waterMark tag mark => rfl
  | external tag => rfl

end Listener

/-- Listeners among which the statistics stand once hear every notice once for them. -/
theorem foldl_teach {ls : List Listener} (h : ls.count .statistics = 1) (notice : Notice) (s : Statistics) :
    ls.foldl (fun s l => l.teach notice s) s = s.hear notice := by
  have silent : ∀ ls : List Listener, .statistics ∉ ls → ∀ s : Statistics,
      ls.foldl (fun s l => l.teach notice s) s = s := by
    intro ls hn
    induction ls with
    | nil => intro s; rfl
    | cons l ls ih =>
      intro s
      have hl : Listener.statistics ≠ l := fun e => hn (e ▸ List.mem_cons_self)
      have hls : Listener.statistics ∉ ls := fun e => hn (List.mem_cons_of_mem _ e)
      rw [List.foldl_cons, Listener.teach_of_ne hl.symm, ih hls]
  induction ls generalizing s with
  | nil => simp at h
  | cons l ls ih =>
    rw [List.foldl_cons]
    by_cases hl : l = .statistics
    · subst hl
      have hz : ls.count .statistics = 0 := by simpa using h
      exact silent ls (List.count_eq_zero.mp hz) _
    · rw [Listener.teach_of_ne hl]
      exact ih (by simpa [List.count_cons, hl] using h) s

namespace Manager

theorem tellOne_eq (m : Manager) (notice : Notice) (l : Listener) :
    m.tellOne notice l =
      ({ m with
          statistics := l.teach notice m.statistics
          outbox := m.outbox ++ (l.notification? notice).toList }, l.hear notice) := by
  cases l <;> simp [tellOne, Listener.teach, Listener.notification?, Listener.tag?, Listener.hear, emit]

theorem tellAll_eq (m : Manager) (notice : Notice) (ls : List Listener) :
    m.tellAll notice ls =
      ({ m with
          statistics := ls.foldl (fun s l => l.teach notice s) m.statistics
          outbox := m.outbox ++ ls.filterMap (·.notification? notice) }, ls.map (·.hear notice)) := by
  induction ls generalizing m with
  | nil => simp [tellAll]
  | cons l ls ih =>
    simp only [tellAll, tellOne_eq, ih, List.foldl_cons, List.map_cons, List.filterMap_cons]
    cases l.notification? notice <;> simp

theorem tell_eq (m : Manager) (notice : Notice) :
    m.tell notice =
      { m with
        listeners := m.listeners.map (·.hear notice)
        statistics := m.listeners.foldl (fun s l => l.teach notice s) m.statistics
        outbox := m.outbox ++ m.listeners.filterMap (·.notification? notice) } := by
  simp only [tell, tellAll_eq]

theorem tellEach_eq (m : Manager) (l : Listener) (notices : List Notice) :
    notices.foldl (fun (s : Manager × Listener) n => s.1.tellOne n s.2) (m, l) =
      ({ m with
          statistics := notices.foldl (fun s n => l.teach n s) m.statistics
          outbox := m.outbox ++ notices.filterMap (l.notification? ·) },
        notices.foldl Listener.hear l) := by
  have steady : ∀ (l : Listener) (n : Notice), (l.hear n).teach = l.teach ∧
      (l.hear n).notification? = l.notification? := by
    intro l n
    cases l <;> exact ⟨rfl, rfl⟩
  induction notices generalizing m l with
  | nil => simp
  | cons n notices ih =>
    rw [List.foldl_cons, tellOne_eq, ih, List.filterMap_cons, (steady l n).1, (steady l n).2]
    cases l.notification? n <;> simp

/-- A new listener is brought up to date; the manager keeps everything but its listeners. -/
theorem addListener_eq (m : Manager) (l : Listener) :
    m.addListener l =
      if m.listeners.any (·.tag? = l.tag?) then m
      else
        { m with
          listeners := m.listeners ++ [(replay m.capacity.entries).foldl Listener.hear l]
          statistics := (replay m.capacity.entries).foldl (fun s n => l.teach n s) m.statistics
          outbox := m.outbox ++ (replay m.capacity.entries).filterMap (l.notification? ·) } := by
  unfold addListener
  split
  next => rfl
  next =>
    have h := tellEach_eq m l (replay m.capacity.entries)
    simp only [h]

end Manager

end Workshare
