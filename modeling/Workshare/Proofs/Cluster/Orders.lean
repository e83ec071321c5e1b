import Workshare.Proofs.Cluster.Turns
import Workshare.Proofs.Manager.Routing

namespace Workshare

structure Order where
  host : NodeId
  mode : Mode
  work : Work

def Order.task (o : Order) : Task :=
  .submit o.host o.mode o.work true

/-- Nothing was heard but questions that the manager of a host asked its strategies. -/
def Asked (n : NodeId) (heard : List Event) : Prop :=
  ∀ ev ∈ heard, ∃ e, ev = .effect n e ∧ e.isQuestion

/-- How far an order has come: what was heard of it, what is still to do, and what its caller was told. -/
inductive Order.Journey (o : Order) : List Event → Option Task → Option Answer → Prop
  | waiting : Journey o [] (some o.task) none
  | nobody : Journey o [] none (some (.outcome (.ok (.error (.configuration "no executor")))))
  | aborted {asked : List Event} (abort : Abort) : Asked o.host asked →
      Journey o asked none (some (.outcome (.error abort)))
  | here {asked : List Event} {e : Errand} : Asked o.host asked →
      e.host = o.host → e.mode = o.mode → e.work = o.work → e.Sound →
      Journey o (asked ++ [.effect o.host (.execute o.mode o.work)]) (some (.errand e .caller)) none
  | done {asked : List Event} {outcome : Outcome} : Asked o.host asked → outcome.Proper o.mode →
      Journey o (asked ++ [.effect o.host (.execute o.mode o.work), .answered o.host o.mode outcome]) none
        (some (.outcome (.ok outcome)))
  | away {asked rest : List Event} {call : Call} (transport : Tag) (peer : NodeId) : Asked o.host asked →
      peer ≠ o.host → call.peer = peer → call.target = peer.text →
      Cluster.SubmitStage peer o.mode o.work call.exchange rest →
      Journey o (asked ++ .effect o.host (.dispatch transport o.mode peer o.work) :: rest)
        (some (.call call (.submit o.mode))) none
  | back {asked rest : List Event} {r : Except WorkError Reply} (transport : Tag) (peer : NodeId) :
      Asked o.host asked → peer ≠ o.host → Cluster.SubmitEnds peer o.mode o.work rest r →
      Journey o (asked ++ .effect o.host (.dispatch transport o.mode peer o.work) :: rest) none
        (some (.outcome (.ok (Cluster.outcomeOf peer o.mode r))))

namespace Cluster

variable {c : Cluster}

theorem asked_map (n : NodeId) {asked : List Effect} (h : ∀ e ∈ asked, e.isQuestion) :
    Asked n (asked.map (Event.effect n)) := by
  intro ev hev
  obtain ⟨e, he, rfl⟩ := List.mem_map.mp hev
  exact ⟨e, rfl, h e he⟩

theorem loud_of_questions (n : NodeId) {asked : List Effect} (h : ∀ e ∈ asked, e.isQuestion) :
    (asked.map (Event.effect n)).filter Event.isLoud = asked.map (Event.effect n) := by
  refine List.filter_eq_self.mpr fun ev hev => ?_
  obtain ⟨e, he, rfl⟩ := List.mem_map.mp hev
  simp [Event.isLoud, Effect.isCalm, h e he]

theorem loud_of_stayed (n : NodeId) {asked told : List Effect} (questions : ∀ e ∈ asked, e.isQuestion)
    (calm : ∀ e ∈ told, e.isCalm) (mode : Mode) (work : Work) :
    ((asked ++ told ++ [Effect.execute mode work]).map (Event.effect n)).filter Event.isLoud =
      asked.map (Event.effect n) ++ [.effect n (.execute mode work)] := by
  rw [List.map_append, List.map_append, List.filter_append, List.filter_append, loud_of_questions n questions,
    loud_of_calm calm, List.append_nil]
  rfl

theorem loud_of_left (n : NodeId) {asked : List Effect} (questions : ∀ e ∈ asked, e.isQuestion) (transport : Tag)
    (mode : Mode) (node : NodeId) (work : Work) :
    ((asked ++ [Effect.dispatch transport mode node work]).map (Event.effect n)).filter Event.isLoud =
      asked.map (Event.effect n) ++ [.effect n (.dispatch transport mode node work)] := by
  rw [List.map_append, List.filter_append, loud_of_questions n questions]
  rfl

def Advances (o : Order) (heard : List Event) (t : Ticket) (c c' : Cluster) : Prop :=
  ∃ loud left said, Turn t c c' loud left said ∧ o.Journey (heard ++ loud) left said

theorem Advances.after {o : Order} {heard loud : List Event} {t : Ticket} {c₁ c₂ : Cluster} (w : Works c c₁ loud)
    (h : Advances o (heard ++ loud) t c₁ c₂) : Advances o heard t c c₂ := by
  obtain ⟨more, left, said, turn, journey⟩ := h
  exact ⟨loud ++ more, left, said, turn.after w, by rwa [← List.append_assoc]⟩

theorem advances_carryOn {o : Order} {t : Ticket} {asked : List Event} (ha : Asked o.host asked)
    {e : Errand} (hh : e.host = o.host) (hm : e.mode = o.mode) (hw : e.work = o.work)
    {r : Cluster × Progress Errand Outcome} (goes : Goes c e [] r) :
    Advances o (asked ++ [.effect o.host (.execute o.mode o.work)]) t c (r.1.carryOn t .caller r.2) := by
  obtain ⟨c₁, p⟩ := r
  cases p with
  | waits e' =>
    obtain ⟨works, hh', hm', hw', sound⟩ := goes
    refine ⟨[], _, none, works.park t _, ?_⟩
    rw [List.append_nil]
    exact .here ha (hh'.trans hh) (hm'.trans hm) (hw'.trans hw) sound
  | ends outcome =>
    obtain ⟨works, proper⟩ := goes
    refine ⟨_, none, _, works.finish t _, ?_⟩
    rw [hh, hm, List.append_assoc]
    exact .done ha (hm ▸ proper)

theorem advances_calls {o : Order} {t : Ticket} {asked before : List Event} {transport : Tag} {peer : NodeId}
    (ha : Asked o.host asked) (hne : peer ≠ o.host) {r : Cluster × Progress Call (Except WorkError Reply)} :
    Calls (SubmitStage peer o.mode o.work) (SubmitEnds peer o.mode o.work) peer c before r →
    Advances o (asked ++ .effect o.host (.dispatch transport o.mode peer o.work) :: before) t c
      (match r with
        | (c, .waits call) => c.park t (.call call (.submit o.mode))
        | (c, .ends r) => c.replied t peer (.submit o.mode) r) := by
  intro calls
  obtain ⟨c₁, p⟩ := r
  cases p with
  | waits call =>
    obtain ⟨more, works, stage, hp, ht⟩ := calls
    refine ⟨more, _, none, works.park t _, ?_⟩
    rw [List.append_assoc]
    exact .away transport peer ha hne hp ht stage
  | ends r =>
    obtain ⟨more, works, ends⟩ := calls
    refine ⟨more, none, _, works.finish t _, ?_⟩
    rw [List.append_assoc]
    exact .back transport peer ha hne ends

theorem route_nowhere {n : NodeId} (hn : c.host? n = none) (t : Ticket) (mode : Mode) (work : Work) :
    c.route t n mode work = c.finish t (some (.outcome (.ok (.error (.configuration "no executor"))))) := by
  have hm : c.manager? n = none := by rw [manager?, hn]; rfl
  have hx : c.executor? n = none := by rw [executor?, hn]; rfl
  unfold route
  dsimp only
  rw [manage_none hm]
  dsimp only
  unfold execute
  rw [hx]
  rfl

theorem advances_route (hs : c.Sane) (o : Order) (t : Ticket) :
    Advances o [] t c (c.route t o.host o.mode o.work) := by
  cases hh : c.host? o.host with
  | none =>
    rw [route_nowhere hh]
    exact ⟨[], none, _, (Works.refl hs).finish t _, .nobody⟩
  | some h =>
    obtain ⟨m, hm, hid, hout⟩ := (hs o.host h hh).manager
    have hm : c.manager? o.host = some m := by rw [manager?, hh]; exact hm
    obtain ⟨kept, news, hnews, emitted⟩ := m.submit_emits (c.free o.host) o.mode o.work
    obtain ⟨works, answer⟩ : Works c (c.manage o.host (·.submit (c.free o.host) o.mode o.work)).1 _ ∧ _ :=
      works_manage hs hm kept
    rw [hnews, hout, List.nil_append] at works
    unfold route
    revert works answer emitted
    dsimp only
    generalize c.manage o.host (·.submit (c.free o.host) o.mode o.work) = r
    generalize (m.submit (c.free o.host) o.mode o.work).2 = placement
    obtain ⟨c₁, a⟩ := r
    rintro emitted works rfl
    dsimp only at works ⊢
    cases emitted with
    | failed _ abort questions =>
      rw [loud_of_questions _ questions] at works
      exact ⟨_, none, _, works.finish t _, .aborted abort (asked_map _ questions)⟩
    -- what is told between the questions and the hand-over is calm, so that it is not heard
    | stayed asked told questions calm =>
      rw [loud_of_stayed _ questions calm] at works
      have there : c₁.hosts.contains o.host := by
        have hh : c.hosts.get? o.host = some h := hh
        rw [works.hosts, Table.contains, hh]
        rfl
      have goes := goes_execute works.sane there t o.mode o.work (.pause 0)
      exact .after works (advances_carryOn (asked_map _ questions) rfl rfl rfl goes)
    | left asked transport node questions hne =>
      rw [loud_of_left _ questions] at works
      rw [hid] at hne
      exact .after works (advances_calls (asked_map _ questions) hne (call_submit works.sane t o.host))

theorem advances_resume (hs : c.Sane) (t : Ticket) {o : Order} {heard : List Event} {task : Task}
    (h : o.Journey heard (some task) none) : Advances o heard t c (c.resume t task) := by
  cases h with
  | waiting => exact advances_route hs o t
  | here ha hh hm hw sound =>
    rename_i e
    exact advances_carryOn ha hh hm hw (goes_pollErrand hs t sound)
  | away transport peer ha hne hp ht stage =>
    rename_i rest call
    obtain rfl := hp
    exact advances_calls ha hne (pollCall_submit hs t stage rfl ht)

end Cluster

end Workshare
