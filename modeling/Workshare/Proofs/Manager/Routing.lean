import Workshare.Proofs.Manager.Emissions

namespace Workshare

def Placement.effect (mode : Mode) (work : Work) : Placement → Effect
  | .dispatch transport node => .dispatch transport mode node work
  | .execute => .execute mode work

namespace Manager

/-- A work stays on its node for one of these reasons. -/
def Keeps (m : Manager) (work : Work) : Prop :=
  work.distributable = false ∨ m.policy = none ∨ m.selector = none ∨ m.transport = none ∨
    (∃ p, m.policy = some p ∧ m.asksPolicy p work = .ok false) ∨
    ∃ s, m.selector = some s ∧
      (s.rule.select m.surroundings work = .ok none ∨ s.rule.select m.surroundings work = .ok (some m.id))

/-- The questions that a routing asks: none unless the work may leave and all three collaborators are there,
and the selector only after the policy has agreed. -/
inductive Consults (m : Manager) (work : Work) : List Effect → Prop
  | nobody :
      work.distributable = false ∨ m.policy = none ∨ m.selector = none ∨ m.transport = none → Consults m work []
  | policy {p : Policy} : work.distributable → m.policy = some p → m.selector.isSome → m.transport.isSome →
      m.asksPolicy p work = .ok false → Consults m work [.askPolicy p.tag work]
  | both {p : Policy} {s : Selector} : work.distributable → m.policy = some p → m.selector = some s →
      m.transport.isSome → m.asksPolicy p work = .ok true →
      Consults m work [.askPolicy p.tag work, .askSelector s.tag work]

/-- Nobody else is the goal of a dispatch than whom the selector chose. -/
def Chooses (m : Manager) (work : Work) (transport : Tag) (node : NodeId) : Prop :=
  m.transport = some transport ∧ node ≠ m.id ∧
    ∃ s, m.selector = some s ∧ s.rule.select m.surroundings work = .ok (some node)

theorem Consults.isQuestion {m : Manager} {work : Work} {asked : List Effect} (h : Consults m work asked) :
    ∀ e ∈ asked, e.isQuestion := by
  intro e he
  cases h with
  | nobody _ => simp at he
  | policy => simp at he; subst he; rfl
  | both => simp at he; rcases he with rfl | rfl <;> rfl

/-- A manager that has said something more, and is the same otherwise. -/
def saying (m : Manager) (effects : List Effect) : Manager :=
  { m with outbox := m.outbox ++ effects }

theorem saying_nil (m : Manager) : m.saying [] = m := by
  simp [saying]

@[simp] theorem saying_id (m : Manager) (effects : List Effect) : (m.saying effects).id = m.id := rfl

@[simp] theorem saying_outbox (m : Manager) (effects : List Effect) :
    (m.saying effects).outbox = m.outbox ++ effects := rfl

/-- What a chosen node means: nobody and oneself both mean the local executor. -/
def placed (m : Manager) (transport : Tag) : Option NodeId → Placement
  | none => .execute
  | some node => if node = m.id then .execute else .dispatch transport node

theorem route_unasked {m : Manager} {work : Work}
    (h : work.distributable = false ∨ m.policy = none ∨ m.selector = none ∨ m.transport = none) :
    m.route work = (m, .ok .execute) := by
  unfold route
  rcases h with h | h | h | h
  · rw [h]; rfl
  · rw [h]; split <;> rfl
  · rw [h]
    split
    next => rfl
    next => cases m.policy <;> rfl
  · rw [h]
    split
    next => rfl
    next => cases m.policy <;> cases m.selector <;> rfl

section Asked

variable {m : Manager} {work : Work} {p : Policy} {s : Selector} {transport : Tag}

theorem route_refused (hd : work.distributable) (hp : m.policy = some p) (hs : m.selector = some s)
    (ht : m.transport = some transport) (ha : m.asksPolicy p work = .ok false) :
    m.route work = (m.saying [.askPolicy p.tag work], .ok .execute) := by
  unfold route
  rw [hd, hp, hs, ht]
  simp only [Bool.not_true, Bool.false_eq_true, if_false, ha]
  rfl

theorem route_agreed (hd : work.distributable) (hp : m.policy = some p) (hs : m.selector = some s)
    (ht : m.transport = some transport) (ha : m.asksPolicy p work = .ok true) {choice : Option NodeId}
    (hc : s.rule.select m.surroundings work = .ok choice) :
    m.route work =
      (m.saying [.askPolicy p.tag work, .askSelector s.tag work], .ok (m.placed transport choice)) := by
  have surrounded : (m.emit (.askPolicy p.tag work)).surroundings = m.surroundings := rfl
  have said : (m.emit (.askPolicy p.tag work)).emit (.askSelector s.tag work) =
      m.saying [.askPolicy p.tag work, .askSelector s.tag work] := by
    simp [emit, saying]
  unfold route
  rw [hd, hp, hs, ht]
  simp only [Bool.not_true, Bool.false_eq_true, if_false, ha, surrounded, hc, said]
  cases choice with
  | none => rfl
  | some node =>
    show (if node = m.id then _ else _) = _
    simp only [placed]
    by_cases h : node = m.id
    · rw [if_pos h, if_pos h]
    · rw [if_neg h, if_neg h]

end Asked

/-- Routing asks, and decides; nothing else happens to the manager. -/
theorem route_decides (m : Manager) (work : Work)
    (hp : ∀ p, m.policy = some p → ∃ answer, m.asksPolicy p work = .ok answer)
    (hs : ∀ s, m.selector = some s → ∃ choice, s.rule.select m.surroundings work = .ok choice) :
    ∃ asked placement, m.route work = (m.saying asked, .ok placement) ∧
      Consults m work asked ∧ (placement = .execute ↔ m.Keeps work) ∧
      ∀ transport node, placement = .dispatch transport node → m.Chooses work transport node := by
  by_cases hn : work.distributable = false ∨ m.policy = none ∨ m.selector = none ∨ m.transport = none
  · refine ⟨[], .execute, by rw [route_unasked hn, saying_nil], .nobody hn, ?_, by simp⟩
    refine iff_of_true rfl ?_
    rcases hn with h | h | h | h <;> simp [Keeps, h]
  · obtain ⟨hd, hpol, hsel, htr⟩ : work.distributable ∧ m.policy.isSome ∧ m.selector.isSome ∧ m.transport.isSome := by
      simpa [not_or, Option.isSome_iff_ne_none] using hn
    obtain ⟨p, hp'⟩ := Option.isSome_iff_exists.mp hpol
    obtain ⟨s, hs'⟩ := Option.isSome_iff_exists.mp hsel
    obtain ⟨transport, ht'⟩ := Option.isSome_iff_exists.mp htr
    obtain ⟨answer, ha⟩ := hp p hp'
    cases answer with
    | false =>
      refine ⟨_, .execute, route_refused hd hp' hs' ht' ha, .policy hd hp' hsel htr ha, ?_, by simp⟩
      exact iff_of_true rfl (by simp [Keeps, hp', ha])
    | true =>
      obtain ⟨choice, hc⟩ := hs s hs'
      refine ⟨_, _, route_agreed hd hp' hs' ht' ha hc, .both hd hp' hs' htr ha, ?_, ?_⟩
      · cases choice with
        | none => simp [placed, Keeps, hs', hc]
        | some node => by_cases h : node = m.id <;> simp [placed, Keeps, hd, hp', hs', ht', ha, hc, h]
      · intro tag node hpl
        cases choice with
        | none => cases hpl
        | some chosen =>
          by_cases h : chosen = m.id
          · simp [placed, h] at hpl
          · simp only [placed, if_neg h, Placement.dispatch.injEq] at hpl
            obtain ⟨rfl, rfl⟩ := hpl
            exact ⟨ht', h, s, hs', hc⟩

/-- A submission that may leave its node asks, tells, and hands its work over: that much and in this order. -/
theorem submit_of_route {m : Manager} {work : Work} {asked : List Effect} {placement : Placement}
    (h : m.route work = (m.saying asked, .ok placement)) (free : Free) (mode : Mode) :
    ∃ m' told, m.submit free mode work = (m', .ok placement) ∧
      m'.outbox = m.outbox ++ (asked ++ told ++ [placement.effect mode work]) ∧ (∀ e ∈ told, e.isCalm) ∧
      ∀ transport node, placement = .dispatch transport node → told = [] ∧ { m' with outbox := m.outbox } = m := by
  cases placement with
  | execute =>
    obtain ⟨told, hout, calm⟩ := handOver_outbox (m.saying asked) free mode work
    refine ⟨(m.saying asked).handOver free mode work, told, by simp only [submit, h], ?_, calm, by simp⟩
    rw [hout]
    simp [Placement.effect]
  | dispatch transport node =>
    refine ⟨(m.saying asked).emit (.dispatch transport mode node work), [], by simp only [submit, h], ?_, by simp, ?_⟩
    · simp [emit, Placement.effect]
    · intro _ _ _
      exact ⟨rfl, rfl⟩

/-- Routing only asks, even where a strategy fails, and it never sends a work to its own node. -/
theorem route_asks (m : Manager) (work : Work) :
    ∃ asked, (∀ e ∈ asked, e.isQuestion) ∧ (m.route work).1 = m.saying asked ∧
      ∀ transport node, (m.route work).2 = .ok (.dispatch transport node) → node ≠ m.id := by
  unfold route
  split
  next => exact ⟨[], by simp, (saying_nil m).symm, by simp⟩
  next =>
    split
    next policy selector transport _ _ _ =>
      dsimp only
      have first : ∀ e ∈ [Effect.askPolicy policy.tag work], e.isQuestion := by simp [Effect.isQuestion]
      have both : ∀ e ∈ [Effect.askPolicy policy.tag work, .askSelector selector.tag work], e.isQuestion := by
        simp [Effect.isQuestion]
      have said : (m.emit (.askPolicy policy.tag work)).emit (.askSelector selector.tag work) =
          m.saying [.askPolicy policy.tag work, .askSelector selector.tag work] := by
        simp [emit, saying]
      split
      next => exact ⟨_, first, rfl, by simp⟩
      next => exact ⟨_, first, rfl, by simp⟩
      next =>
        split
        next => exact ⟨_, both, said, by simp⟩
        next => exact ⟨_, both, said, by simp⟩
        next node _ =>
          split
          next => exact ⟨_, both, said, by simp⟩
          next hne =>
            refine ⟨_, both, said, ?_⟩
            rintro _ _ ⟨⟩
            exact hne
    next => exact ⟨[], by simp, (saying_nil m).symm, by simp⟩

/-- What leaves a manager with a submission: questions, and then a work for the own executor or for one peer, unless
a strategy failed. -/
inductive Emits (m : Manager) (mode : Mode) (work : Work) : List Effect → Except Abort Placement → Prop
  | failed (asked : List Effect) (abort : Abort) : (∀ e ∈ asked, e.isQuestion) → Emits m mode work asked (.error abort)
  | stayed (asked told : List Effect) : (∀ e ∈ asked, e.isQuestion) → (∀ e ∈ told, e.isCalm) →
      Emits m mode work (asked ++ told ++ [.execute mode work]) (.ok .execute)
  | left (asked : List Effect) (transport : Tag) (node : NodeId) : (∀ e ∈ asked, e.isQuestion) → node ≠ m.id →
      Emits m mode work (asked ++ [.dispatch transport mode node work]) (.ok (.dispatch transport node))

theorem submit_emits (m : Manager) (free : Free) (mode : Mode) (work : Work) :
    (m.submit free mode work).1.id = m.id ∧
      ∃ news, (m.submit free mode work).1.outbox = m.outbox ++ news ∧
        m.Emits mode work news (m.submit free mode work).2 := by
  obtain ⟨asked, questions, hr, elsewhere⟩ := route_asks m work
  unfold submit
  revert hr elsewhere
  generalize m.route work = routed
  obtain ⟨m₁, placement⟩ := routed
  rintro rfl elsewhere
  cases placement with
  | error abort => exact ⟨rfl, asked, rfl, .failed asked abort questions⟩
  | ok placement =>
    cases placement with
    | execute =>
      obtain ⟨told, hout, calm⟩ := handOver_outbox (m.saying asked) free mode work
      refine ⟨(Murmurs.announce (m.saying asked) _ _).id, asked ++ told ++ [.execute mode work], ?_, ?_⟩
      · dsimp only
        rw [hout]
        simp
      · exact .stayed asked told questions calm
    | dispatch transport node =>
      refine ⟨rfl, asked ++ [.dispatch transport mode node work], ?_, ?_⟩
      · simp [emit]
      · exact .left asked transport node questions (elsewhere transport node rfl)

/-- The caller gets what came back, and nothing more is asked or handed over; after a dispatch the manager does not
move at all. -/
theorem conclude_keeps (m : Manager) (mode : Mode) (placement : Placement) (outcome : Outcome) :
    (m.conclude mode placement outcome).2 = outcome ∧ Murmurs m (m.conclude mode placement outcome).1 ∧
      (placement ≠ .execute → (m.conclude mode placement outcome).1 = m) := by
  cases placement with
  | execute => exact ⟨rfl, Murmurs.record m _, fun h => absurd rfl h⟩
  | dispatch transport node => exact ⟨rfl, Murmurs.refl m, fun _ => rfl⟩

theorem handOvers_once {asked told : List Effect} {e : Effect} (hq : ∀ e ∈ asked, e.isQuestion)
    (hc : ∀ e ∈ told, e.isCalm) (he : e.isHandOver) :
    (asked ++ told ++ [e]).filter (·.isHandOver) = [e] := by
  have noneAsked : asked.filter (·.isHandOver) = [] := by
    refine List.filter_eq_nil_iff.mpr fun e he h => ?_
    have := hq e he
    cases e <;> simp_all [Effect.isQuestion, Effect.isHandOver]
  have noneTold : told.filter (·.isHandOver) = [] := by
    refine List.filter_eq_nil_iff.mpr fun e he h => ?_
    have := hc e he
    simp [Effect.isCalm, h] at this
  rw [List.filter_append, List.filter_append, noneAsked, noneTold]
  simp [he]

/-- Whatever is installed and whoever is in the group: a submission is handed over exactly once and in its own mode,
here for the reasons to stay and else to the peer that the selector chose; no strategy is asked twice, or without
need; and what comes back from a dispatch goes to the caller as it is and leaves no trace in the manager. -/
theorem submit_once (m : Manager) (free : Free) (mode : Mode) (work : Work)
    (hp : ∀ p, m.policy = some p → ∃ answer, m.asksPolicy p work = .ok answer)
    (hs : ∀ s, m.selector = some s → ∃ choice, s.rule.select m.surroundings work = .ok choice) :
    ∃ m' placement asked told,
      m.submit free mode work = (m', .ok placement) ∧
      m'.outbox = m.outbox ++ (asked ++ told ++ [placement.effect mode work]) ∧
      (asked ++ told ++ [placement.effect mode work]).filter (·.isHandOver) = [placement.effect mode work] ∧
      Consults m work asked ∧ (∀ e ∈ told, e.isCalm) ∧
      (placement = .execute ↔ m.Keeps work) ∧
      (∀ transport node, placement = .dispatch transport node →
        m.Chooses work transport node ∧ told = [] ∧ { m' with outbox := m.outbox } = m) ∧
      ∀ (later : Manager) (outcome : Outcome),
        (later.conclude mode placement outcome).2 = outcome ∧
        Murmurs later (later.conclude mode placement outcome).1 ∧
        (placement ≠ .execute → (later.conclude mode placement outcome).1 = later) := by
  obtain ⟨asked, placement, hr, consults, keeps, chooses⟩ := route_decides m work hp hs
  obtain ⟨m', told, hsub, hout, calm, frame⟩ := submit_of_route hr free mode
  refine ⟨m', placement, asked, told, hsub, hout, ?_, consults, calm, keeps, ?_, ?_⟩
  · exact handOvers_once consults.isQuestion calm (by cases placement <;> rfl)
  · intro transport node h
    exact ⟨chooses transport node h, frame transport node h⟩
  · exact fun later outcome => conclude_keeps later mode placement outcome

/-- A manager with everything installed and one free peer. -/
def wired : Manager :=
  (start ⟨"a"⟩ .default ⟨1, 1⟩).run
    [.transport ⟨"network", 0⟩ false, .policy ⟨⟨"policy", 0⟩, .always⟩, .selector ⟨⟨"selector", 0⟩, .firstAvailable⟩,
      .hear (.join ⟨"b"⟩), .hear (.free ⟨"b"⟩ false 2)]

def parcel : Work :=
  ⟨⟨"w"⟩, "echo", .null, true, false⟩

theorem submit_once_wired :
    (∀ p, wired.policy = some p → ∃ answer, wired.asksPolicy p parcel = .ok answer) ∧
    (∀ s, wired.selector = some s → ∃ choice, s.rule.select wired.surroundings parcel = .ok choice) ∧
    (wired.submit ⟨1, 1⟩ .start parcel).2 = .ok (.dispatch ⟨"network", 0⟩ ⟨"b"⟩) ∧
    ∃ asked, Consults wired parcel asked ∧
      (wired.submit ⟨1, 1⟩ .start parcel).1.outbox =
        wired.outbox ++ (asked ++ [.dispatch ⟨"network", 0⟩ .start ⟨"b"⟩ parcel]) := by
  have agrees : ∀ p, wired.policy = some p → ∃ answer, wired.asksPolicy p parcel = .ok answer := by
    rintro p ⟨⟩
    exact ⟨true, rfl⟩
  have chooses : ∀ s, wired.selector = some s →
      ∃ choice, s.rule.select wired.surroundings parcel = .ok choice := by
    rintro s ⟨⟩
    exact ⟨some ⟨"b"⟩, rfl⟩
  have goes : (wired.submit ⟨1, 1⟩ .start parcel).2 = .ok (.dispatch ⟨"network", 0⟩ ⟨"b"⟩) := rfl
  obtain ⟨m', placement, asked, told, hsub, hout, _, consults, _, _, leaves, _⟩ :=
    submit_once wired ⟨1, 1⟩ .start parcel agrees chooses
  rw [hsub] at goes
  cases goes
  obtain ⟨_, rfl, _⟩ := leaves _ _ rfl
  exact ⟨agrees, chooses, by rw [hsub], asked, consults, by rw [hsub, hout]; simp [Placement.effect]⟩

end Manager

end Workshare
