import Workshare.Rehearsal
import Workshare.Proofs.Manager.Admissions
import Workshare.Proofs.Manager.Balance
import Workshare.Proofs.Manager.Reckoning

namespace Workshare

/-- A work that the executor has got: how it has ended, once its hook was called, and what the executor has answered. -/
structure Handed where
  mode : Mode
  work : Work
  ended : Option Bool
  answer : Option Outcome

namespace Handed

def fresh (mode : Mode) (work : Work) : Handed :=
  ⟨mode, work, none, none⟩

def outcome (success : Bool) : Counter :=
  if success then .workSuccessful else .workFailed

def counted (h : Handed) : List Counter :=
  h.answer.toList.map h.mode.admission ++ h.ended.toList.map outcome

def refuses : Outcome → Bool
  | .error (.rejected _) => true
  | _ => false

def isAnswered (refused : Bool) (h : Handed) : Bool :=
  h.answer.any (refuses · = refused)

def isRefused (h : Handed) : Bool :=
  h.isAnswered true

def isAccepted (h : Handed) : Bool :=
  h.isAnswered false

end Handed

/-- What neither gives the executor a work nor goes on with one that it has. -/
def Move.isAside (m : Manager) : Move → Bool
  | .count _ => false
  | .submitHere _ _ _ => false
  | .complete _ _ _ => false
  | .settle _ _ => false
  | .submit free mode work => (m.submit free mode work).2.toOption ≠ some .execute
  | _ => true

theorem Move.records_of_isAside {m : Manager} {x : Move} (h : x.isAside m) : x.records = none := by
  cases x with
  | count c => cases h
  | complete free long success => cases h
  | settle mode outcome => cases h
  | _ => rfl

/-- A manager and the works that its executor has got, in order. -/
structure Desk where
  manager : Manager
  handed : List Handed

namespace Desk

/-- One step, with what is counted in it and the transport that is told of that. -/
inductive Step : Desk → List (Counter × Option Tag) → Desk → Prop
  | hands {d : Desk} (free : Free) (mode : Mode) (work : Work) :
      Step d [] ⟨d.manager.handOver free mode work, d.handed ++ [.fresh mode work]⟩
  | keeps {d : Desk} (free : Free) (mode : Mode) (work : Work) :
      (d.manager.submit free mode work).2 = .ok .execute →
      Step d [] ⟨(d.manager.submit free mode work).1, d.handed ++ [.fresh mode work]⟩
  | ends {d : Desk} {k : Nat} {h : Handed} (free : Free) (success : Bool) :
      d.handed[k]? = some h → h.ended = none →
      Step d [(Handed.outcome success, d.manager.channel)]
        ⟨d.manager.hook h.work free success, d.handed.set k { h with ended := some success }⟩
  | answers {d : Desk} {k : Nat} {h : Handed} (outcome : Outcome) :
      d.handed[k]? = some h → h.answer = none →
      Step d [(h.mode.admission outcome, d.manager.channel)]
        ⟨d.manager.settle h.mode outcome, d.handed.set k { h with answer := some outcome }⟩
  | aside {d : Desk} {x : Move} : x.isAside d.manager → Step d [] { d with manager := d.manager.move x }

inductive Runs : Desk → List (Counter × Option Tag) → Desk → Prop
  | refl (d : Desk) : Runs d [] d
  | step {a b c : Desk} {log news : List (Counter × Option Tag)} :
      Runs a log b → Step b news c → Runs a (log ++ news) c

theorem Runs.trans {a b c : Desk} {log news : List (Counter × Option Tag)} (h : Runs a log b) (h' : Runs b news c) :
    Runs a (log ++ news) c := by
  induction h' with
  | refl => rwa [List.append_nil]
  | step _ next ih =>
    rw [← List.append_assoc]
    exact ih.step next

/-- What was counted since, and what was told of it to whom. -/
structure Accounts (a : Desk) (log : List (Counter × Option Tag)) (b : Desk) : Prop where
  reached : ∃ moves, b.manager = a.manager.run moves
  own : ∀ c, b.manager.statistics.own.get c = a.manager.statistics.own.get c + (log.map (·.1)).count c
  told : ∃ news, b.manager.outbox = a.manager.outbox ++ news ∧
    news.filter Effect.isDelta = log.filterMap fun e => e.2.map (Effect.delta · a.manager.id e.1)
  works : (b.handed.flatMap Handed.counted).Perm (a.handed.flatMap Handed.counted ++ log.map (·.1))

/-- A delta leaves a manager only with a step of its own tally. -/
theorem outbox_of_silent (m : Manager) {x : Move} (silent : x.records = none) :
    ∃ news, (m.move x).outbox = m.outbox ++ news ∧ news.filter Effect.isDelta = [] := by
  have reports : m.Reports (m.move x) := by
    by_cases delta : ∃ origin c, x = .hear (.delta origin c)
    · obtain ⟨origin, c, rfl⟩ := delta
      exact .of_tells (.hear m (.delta origin c))
    · exact (Manager.Reckons.move m fun origin c e => delta ⟨origin, c, e⟩).toReports
  obtain ⟨news, steps, out, deltas, own⟩ := reports.told
  have uncounted : steps = [] := by
    refine List.eq_nil_iff_forall_not_mem.mpr fun c hc => ?_
    have still := own c
    rw [Manager.own_move, silent, Option.elim_none] at still
    have some := List.count_pos_iff.mpr hc
    omega
  rw [uncounted, List.map_nil, List.filterMap_eq_nil_iff] at deltas
  refine ⟨news, out, List.filter_eq_nil_iff.mpr fun e he => ?_⟩
  have none := deltas e he
  cases e with
  | delta tag origin c => cases none
  | _ => exact Bool.false_ne_true

theorem Accounts.of_silent {a b : Desk} (x : Move) (silent : x.records = none) (moved : b.manager = a.manager.move x)
    (works : b.handed.flatMap Handed.counted = a.handed.flatMap Handed.counted) : Accounts a [] b := by
  obtain ⟨news, out, quiet⟩ := outbox_of_silent a.manager silent
  refine ⟨⟨[x], moved⟩, fun c => ?_, ⟨news, moved ▸ out, quiet⟩, ?_⟩
  · rw [moved, Manager.own_move, silent]
    rfl
  · rw [works, List.map_nil, List.append_nil]

theorem counted_fresh (handed : List Handed) (mode : Mode) (work : Work) :
    (handed ++ [Handed.fresh mode work]).flatMap Handed.counted = handed.flatMap Handed.counted := by
  simp [Handed.fresh, Handed.counted]

theorem counted_set {handed : List Handed} {k : Nat} {h h' : Handed} {c : Counter} (known : handed[k]? = some h)
    (more : h'.counted.Perm (h.counted ++ [c])) :
    ((handed.set k h').flatMap Handed.counted).Perm (handed.flatMap Handed.counted ++ [c]) := by
  induction handed generalizing k with
  | nil => cases known
  | cons first rest ih =>
    cases k with
    | zero =>
      obtain rfl : first = h := Option.some.inj known
      rw [List.set_cons_zero, List.flatMap_cons, List.flatMap_cons, List.append_assoc]
      refine (more.append_right _).trans ?_
      rw [List.append_assoc]
      exact List.perm_append_comm.append_left _
    | succ k =>
      rw [List.set_cons_succ, List.flatMap_cons, List.flatMap_cons, List.append_assoc]
      exact (ih known).append_left _

theorem Accounts.of_counts {a b : Desk} {c : Counter} {m₁ : Manager} (moves : List Move)
    (reached : b.manager = a.manager.run moves) (counts : a.manager.Counts m₁ c)
    (own : b.manager.statistics.own = m₁.statistics.own)
    (told : ∃ news, b.manager.outbox = m₁.outbox ++ news ∧ news.filter Effect.isDelta = [])
    (works : (b.handed.flatMap Handed.counted).Perm (a.handed.flatMap Handed.counted ++ [c])) :
    Accounts a [(c, a.manager.channel)] b := by
  obtain ⟨news, out, quiet⟩ := told
  refine ⟨⟨moves, reached⟩, fun d => ?_,
    ⟨(a.manager.channel.map (.delta · a.manager.id c)).toList ++ news, ?_, ?_⟩, works⟩
  · rw [own, counts.own, List.map_singleton, List.count_singleton]
    by_cases same : d = c
    · simp [same]
    · simp [same, Ne.symm same]
  · rw [out, counts.outbox, List.append_assoc]
  · rw [List.filter_append, quiet, List.append_nil]
    cases a.manager.channel with
    | none => rfl
    | some tag => rfl

namespace Accounts

theorem refl (a : Desk) : Accounts a [] a :=
  ⟨⟨[], rfl⟩, fun _ => rfl, ⟨[], (List.append_nil _).symm, rfl⟩, by simp⟩

theorem trans {a b c : Desk} {log news : List (Counter × Option Tag)} (h : Accounts a log b) (h' : Accounts b news c) :
    Accounts a (log ++ news) c := by
  obtain ⟨moves, reached⟩ := h.reached
  obtain ⟨more, further⟩ := h'.reached
  obtain ⟨before, out, told⟩ := h.told
  obtain ⟨after, out', told'⟩ := h'.told
  have self : b.manager.id = a.manager.id := by rw [reached, Manager.run_id]
  refine ⟨⟨moves ++ more, ?_⟩, fun d => ?_, ⟨before ++ after, ?_, ?_⟩, ?_⟩
  · rw [further, reached, Manager.run_append]
  · rw [h'.own, h.own, List.map_append, List.count_append, Nat.add_assoc]
  · rw [out', out, List.append_assoc]
  · rw [List.filter_append, told, told', List.filterMap_append, self]
  · rw [List.map_append, ← List.append_assoc]
    exact h'.works.trans (h.works.append_right _)

theorem step {a b : Desk} {log : List (Counter × Option Tag)} (sound : a.manager.Sound) (wired : a.manager.Wired)
    (step : Step a log b) : Accounts a log b := by
  cases step with
  | hands free mode work => exact of_silent (.submitHere free mode work) rfl rfl (counted_fresh _ _ _)
  | keeps free mode work stays => exact of_silent (.submit free mode work) rfl rfl (counted_fresh _ _ _)
  | @ends k h free success known unended =>
    obtain ⟨m₁, counts, publishes⟩ := Manager.hook_counts sound wired h.work free success
    refine of_counts [.complete free h.work.longRunning success] rfl counts ?_ publishes.quiet ?_
    · have same := congrArg (·.statistics) publishes.rest
      exact congrArg Statistics.own same
    · refine counted_set known ?_
      rw [Handed.counted, Handed.counted, unended]
      simp
  | @answers k h outcome known unanswered =>
    refine of_counts [.settle h.mode outcome] rfl (.record wired _) rfl ⟨[], (List.append_nil _).symm, rfl⟩ ?_
    refine counted_set known ?_
    rw [Handed.counted, Handed.counted, unanswered]
    exact List.perm_append_comm
  | @aside x quiet => exact of_silent x (Move.records_of_isAside quiet) rfl rfl

theorem run {a b : Desk} {log : List (Counter × Option Tag)} (sound : a.manager.Sound) (wired : a.manager.Wired)
    (runs : Runs a log b) : Accounts a log b := by
  induction runs with
  | refl => exact refl a
  | step _ next ih =>
    obtain ⟨moves, reached⟩ := ih.reached
    exact ih.trans (step (reached ▸ sound.run moves) (reached ▸ wired.run moves) next)

end Accounts

end Desk

namespace Rehearsal

variable (r : Rehearsal) (handed : List Handed) (mode : Mode) (work : Work)

/-- A work that the script is through with. -/
def through : Handed :=
  ⟨mode, work, r.script.hook, some (r.script.outcome mode)⟩

/-- What is counted for a work that the script has got, in order: its hook comes before its answer. -/
def counters : List Counter :=
  r.script.hook.toList.map Handed.outcome ++ [mode.admission (r.script.outcome mode)]

theorem finish_runs :
    ∃ log, Desk.Runs ⟨r.manager, handed ++ [.fresh mode work]⟩ log
        ⟨(r.finish mode work .execute).1.manager, handed ++ [r.through mode work]⟩ ∧
      log.map (·.1) = r.counters mode := by
  have last (h : Handed) : (handed ++ [h])[handed.length]? = some h := List.getElem?_concat_length
  have replaced (h h' : Handed) : (handed ++ [h]).set handed.length h' = handed ++ [h'] := by
    rw [List.set_append_right _ _ (Nat.le_refl _), Nat.sub_self, List.set_cons_zero]
  have first := Desk.Runs.refl ⟨r.manager, handed ++ [.fresh mode work]⟩
  unfold finish fulfil through counters
  cases r.script.hook with
  | none =>
    have answered := first.step (.answers (r.script.outcome mode) (last _) rfl)
    rw [replaced] at answered
    exact ⟨_, answered, rfl⟩
  | some success =>
    have ended := first.step (.ends r.script.free success (last _) rfl)
    rw [replaced] at ended
    have answered := ended.step (.answers (r.script.outcome mode) (last _) rfl)
    rw [replaced] at answered
    exact ⟨_, answered, rfl⟩

/-- What the script does with a work is a run at the desk. -/
theorem submitHere_runs :
    ∃ log, Desk.Runs ⟨r.manager, handed⟩ log
        ⟨(r.submitHere mode work).1.manager, handed ++ [r.through mode work]⟩ ∧
      log.map (·.1) = r.counters mode := by
  have handedOver := (Desk.Runs.refl ⟨r.manager, handed⟩).step (.hands r.script.free mode work)
  obtain ⟨log, finished, counted⟩ :=
    finish_runs { r with manager := r.manager.handOver r.script.free mode work } handed mode work
  exact ⟨_, handedOver.trans finished, counted⟩

theorem submit_runs (stays : (r.manager.submit r.script.free mode work).2 = .ok .execute) :
    ∃ log, Desk.Runs ⟨r.manager, handed⟩ log
        ⟨(r.submit mode work).1.manager, handed ++ [r.through mode work]⟩ ∧
      log.map (·.1) = r.counters mode ∧ (r.submit mode work).2 = .ok (r.script.outcome mode) := by
  have kept := (Desk.Runs.refl ⟨r.manager, handed⟩).step (.keeps r.script.free mode work stays)
  obtain ⟨log, finished, counted⟩ :=
    finish_runs { r with manager := (r.manager.submit r.script.free mode work).1 } handed mode work
  unfold submit
  dsimp only
  rw [stays]
  exact ⟨_, kept.trans finished, counted, rfl⟩

end Rehearsal

namespace Handed

theorem count_flatMap {c : Counter} {p : Handed → Bool} (one : ∀ h, h.counted.count c = if p h then 1 else 0)
    (handed : List Handed) : (handed.flatMap counted).count c = handed.countP p := by
  induction handed with
  | nil => rfl
  | cons h handed ih => rw [List.flatMap_cons, List.count_append, one, ih, List.countP_cons, Nat.add_comm]

theorem admission_eq (mode : Mode) (outcome : Outcome) :
    mode.admission outcome = if refuses outcome then mode.rejected else mode.accepted := by
  cases outcome with
  | ok value => rfl
  | error e => cases e <;> rfl

theorem admission_inj {a b : Mode} {refused refused' : Bool} :
    (if refused then a.rejected else a.accepted) = (if refused' then b.rejected else b.accepted) ↔
      a = b ∧ refused = refused' := by
  cases a <;> cases b <;> cases refused <;> cases refused' <;> simp [Mode.rejected, Mode.accepted]

theorem admission_ne_outcome (mode : Mode) (refused success : Bool) :
    (if refused then mode.rejected else mode.accepted) ≠ outcome success := by
  cases mode <;> cases refused <;> cases success <;> simp [Mode.rejected, Mode.accepted, outcome]

theorem count_admission (mode : Mode) (refused : Bool) (h : Handed) :
    h.counted.count (if refused then mode.rejected else mode.accepted) =
      if h.mode = mode && h.isAnswered refused then 1 else 0 := by
  have unended : (h.ended.toList.map outcome).count (if refused then mode.rejected else mode.accepted) = 0 := by
    refine List.count_eq_zero.mpr fun counted => ?_
    obtain ⟨success, _, same⟩ := List.mem_map.mp counted
    exact admission_ne_outcome mode refused success same.symm
  rw [counted, List.count_append, unended, Nat.add_zero, isAnswered]
  cases h.answer with
  | none => simp
  | some answer =>
    rw [Option.toList_some, List.map_singleton, List.count_singleton, admission_eq, Option.any_some]
    simp [admission_inj]

theorem count_outcome (success : Bool) (h : Handed) :
    h.counted.count (outcome success) = if decide (h.ended = some success) then 1 else 0 := by
  have unanswered : (h.answer.toList.map h.mode.admission).count (outcome success) = 0 := by
    refine List.count_eq_zero.mpr fun counted => ?_
    obtain ⟨answer, _, same⟩ := List.mem_map.mp counted
    rw [admission_eq] at same
    exact admission_ne_outcome h.mode (refuses answer) success same
  rw [counted, List.count_append, unanswered, Nat.zero_add]
  cases h.ended with
  | none => rfl
  | some ended => cases ended <;> cases success <;> rfl

/-- A work that was answered was either accepted or refused. -/
theorem countP_answered (mode : Mode) {handed : List Handed} (answered : ∀ h ∈ handed, h.answer.isSome) :
    handed.countP (fun h => h.mode = mode && h.isAccepted) + handed.countP (fun h => h.mode = mode && h.isRefused) =
      handed.countP (·.mode = mode) := by
  induction handed with
  | nil => rfl
  | cons h handed ih =>
    have rest := ih fun h' hh => answered h' (List.mem_cons_of_mem _ hh)
    obtain ⟨answer, known⟩ := Option.isSome_iff_exists.mp (answered h List.mem_cons_self)
    have either : h.isAccepted = !h.isRefused := by
      simp [isAccepted, isRefused, isAnswered, known]
    rw [List.countP_cons, List.countP_cons, List.countP_cons, either]
    cases h.isRefused <;> by_cases same : h.mode = mode <;> simp [same] <;> omega

end Handed

/-- Whatever happened to a manager before, and whatever its executor does with the works that it has got, as long as it
calls no hook twice: the executor gets a work after one worker less was published; a rejection and anything else that it
answers count for the mode of the work, each by one counter; a hook counts how the work has ended, and then publishes
the workers that are free in its pool. The deltas sent since are what was counted, in that order, to the transport that
there was. So the counters say how many works of a mode were refused and accepted, which is all of them once they are
answered, and how many have ended well and badly. A submission to an executor that follows a script is such a run: it
counts what the hook says, then the answer, and hands the answer back. -/
theorem Desk.local_works_count (id : NodeId) (settings : ManagerSettings) (free₀ : Free) (moves : List Move)
    {log : List (Counter × Option Tag)} {d : Desk}
    (runs : Runs ⟨(Manager.start id settings free₀).run moves, []⟩ log d) :
    let m₀ := (Manager.start id settings free₀).run moves
    let m := d.manager
    (∀ free mode work, m.Admits (m.handOver free mode work) free mode work) ∧
    (∀ free mode work, (m.submit free mode work).2 = .ok .execute →
      ∃ asked, (∀ e ∈ asked, e.isQuestion) ∧
        (m.saying asked).Admits (m.submit free mode work).1 free mode work) ∧
    (∀ mode reason, m.Counts (m.settle mode (.error (.rejected reason))) mode.rejected) ∧
    (∀ mode outcome, (∀ reason, outcome ≠ .error (.rejected reason)) →
      m.Counts (m.settle mode outcome) mode.accepted) ∧
    (∀ work free success, ∃ m₁,
      m.Counts m₁ (if success then .workSuccessful else .workFailed) ∧
      m₁.Publishes (m.hook work free success) work.longRunning (free.ofPool work.longRunning)) ∧
    (log.map (·.1)).Perm (d.handed.flatMap Handed.counted) ∧
    (∃ news, m.outbox = m₀.outbox ++ news ∧
      news.filter Effect.isDelta = log.filterMap fun e => e.2.map (Effect.delta · id e.1)) ∧
    (∀ mode : Mode,
      m.statistics.own.get mode.rejected =
        m₀.statistics.own.get mode.rejected + d.handed.countP (fun h => h.mode = mode && h.isRefused) ∧
      m.statistics.own.get mode.accepted =
        m₀.statistics.own.get mode.accepted + d.handed.countP (fun h => h.mode = mode && h.isAccepted) ∧
      ((∀ h ∈ d.handed, h.answer.isSome) →
        d.handed.countP (fun h => h.mode = mode && h.isAccepted) +
          d.handed.countP (fun h => h.mode = mode && h.isRefused) = d.handed.countP (·.mode = mode))) ∧
    m.statistics.own.get .workSuccessful =
      m₀.statistics.own.get .workSuccessful + d.handed.countP (·.ended = some true) ∧
    m.statistics.own.get .workFailed =
      m₀.statistics.own.get .workFailed + d.handed.countP (·.ended = some false) ∧
    ∀ script broken mode work,
      let r : Rehearsal := ⟨m, script, broken⟩
      (∃ more, Runs d more ⟨(r.submitHere mode work).1.manager, d.handed ++ [r.through mode work]⟩ ∧
        more.map (·.1) = r.counters mode) ∧ (r.submitHere mode work).2 = script.outcome mode ∧
      ((m.submit script.free mode work).2 = .ok .execute →
        ∃ more, Runs d more ⟨(r.submit mode work).1.manager, d.handed ++ [r.through mode work]⟩ ∧
          more.map (·.1) = r.counters mode ∧ (r.submit mode work).2 = .ok (script.outcome mode)) := by
  intro m₀ m
  have started : m₀.Sound := (Manager.Sound.start id settings free₀).run moves
  have connected : m₀.Wired := (Manager.Wired.start id settings free₀).run moves
  have self : m₀.id = id := Manager.run_id _ moves
  have account := Desk.Accounts.run started connected runs
  obtain ⟨later, reached⟩ := account.reached
  have sound : m.Sound := by
    rw [show m = m₀.run later from reached]
    exact started.run later
  have wired : m.Wired := by
    rw [show m = m₀.run later from reached]
    exact connected.run later
  have counted : (log.map (·.1)).Perm (d.handed.flatMap Handed.counted) := account.works.symm
  -- a counter has gone up by the works that were counted by it
  have grown {c : Counter} {p : Handed → Bool} (one : ∀ h, h.counted.count c = if p h then 1 else 0) :
      m.statistics.own.get c = m₀.statistics.own.get c + d.handed.countP p := by
    rw [← Handed.count_flatMap one, ← counted.count_eq]
    exact account.own c
  refine ⟨fun free mode work => .handOver sound free mode work, fun _ _ _ stays => Manager.Admits.submit sound stays,
    fun mode reason => ?_, fun mode outcome other => ?_, Manager.hook_counts sound wired, counted, self ▸ account.told,
    fun mode => ⟨grown (Handed.count_admission mode true), grown (Handed.count_admission mode false),
      Handed.countP_answered mode⟩,
    grown (Handed.count_outcome true), grown (Handed.count_outcome false), fun script broken mode work => ?_⟩
  · exact Manager.Counts.record wired _
  · have taken : mode.admission outcome = mode.accepted := by
      unfold Mode.admission
      split
      next reason => exact absurd rfl (other reason)
      next => rfl
    rw [← taken]
    exact Manager.Counts.record wired _
  · let r : Rehearsal := ⟨m, script, broken⟩
    exact ⟨r.submitHere_runs d.handed mode work, rfl, r.submit_runs d.handed mode work⟩

/-- A manager that replicates, before it has got any work. -/
def Desk.quiet : Desk :=
  ⟨(Manager.start ⟨"a"⟩ .default ⟨2, 1⟩).run [.transport ⟨"network", 0⟩ false], []⟩

theorem Desk.local_works_count_refused :
    ∃ log d, Runs .quiet log d ∧
      log.map (·.1) = [.workSuccessful, .startWorkRejected, .doWorkAccepted] ∧
      d.manager.statistics.own.get .doWorkAccepted = 1 ∧
      d.manager.statistics.own.get .startWorkRejected = 1 ∧
      d.manager.statistics.own.get .workSuccessful = 1 ∧
      d.manager.statistics.own.get .workFailed = 0 ∧
      ∃ news, d.manager.outbox = Desk.quiet.manager.outbox ++ news ∧
        news.filter Effect.isDelta =
          [.delta ⟨"network", 0⟩ ⟨"a"⟩ .workSuccessful, .delta ⟨"network", 0⟩ ⟨"a"⟩ .startWorkRejected,
            .delta ⟨"network", 0⟩ ⟨"a"⟩ .doWorkAccepted] := by
  let brief : Work := ⟨⟨"1"⟩, "echo", .null, false, false⟩
  let lasting : Work := ⟨⟨"2"⟩, "echo", .null, false, true⟩
  have first := Runs.step (.refl .quiet) (.hands ⟨2, 0⟩ .run brief)
  have second := first.step (.hands ⟨1, 0⟩ .start lasting)
  have ended := second.step (.ends (k := 0) ⟨2, 0⟩ true rfl rfl)
  have refused := ended.step (.answers (k := 1) (.error (.rejected "no worker")) rfl rfl)
  have answered := refused.step (.answers (k := 0) (.ok none) rfl rfl)
  obtain ⟨_, _, _, _, _, _, ⟨news, out, told⟩, admissions, well, badly, _⟩ :=
    local_works_count ⟨"a"⟩ .default ⟨2, 1⟩ [.transport ⟨"network", 0⟩ false] answered
  exact ⟨_, _, answered, rfl, (admissions .run).2.1, (admissions .start).1, well, badly, news, out, told⟩

end Workshare
