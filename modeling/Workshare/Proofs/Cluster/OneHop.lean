import Workshare.Proofs.Cluster.Courses
import Workshare.Proofs.Wire.Work

namespace Workshare

namespace Event

def execution? : Event → Option (NodeId × Mode × Work)
  | .effect n (.execute mode work) => some (n, mode, work)
  | _ => none

def dispatch? : Event → Option (NodeId × NodeId × Mode × Work)
  | .effect n (.dispatch _ mode peer work) => some (n, peer, mode, work)
  | _ => none

end Event

/-- The manager of its host has sent an order to a peer. -/
def Order.RoutedTo (o : Order) (peer : NodeId) (heard : List Event) : Prop :=
  ∃ transport, .effect o.host (.dispatch transport o.mode peer o.work) ∈ heard

/-- What is true of an order at any time, of what was heard of it and of what its caller was told. -/
structure Order.OneHop (o : Order) (heard : List Event) (told : List Answer) : Prop where
  executed : (heard.filterMap Event.execution?).length ≤ 1
  dispatched : (heard.filterMap Event.dispatch?).length ≤ 1
  answered : told.length ≤ 1
  questions : ∀ n e, .effect n e ∈ heard → e.isQuestion → n = o.host
  dispatches : ∀ n transport mode peer work, .effect n (.dispatch transport mode peer work) ∈ heard →
    n = o.host ∧ peer ≠ o.host ∧ mode = o.mode ∧ work = o.work
  routed : ∀ peer, o.RoutedTo peer heard → ∀ n mode work, .effect n (.execute mode work) ∈ heard →
    n = peer ∧ mode = o.mode ∧ (o.work.Portable → work = o.work)
  stayed : (∀ peer, ¬ o.RoutedTo peer heard) → ∀ n mode work, .effect n (.execute mode work) ∈ heard →
    n = o.host ∧ mode = o.mode ∧ work = o.work
  answers : ∀ n mode outcome, .answered n mode outcome ∈ heard → ∃ work, .effect n (.execute mode work) ∈ heard
  ok : ∀ d, .outcome (.ok (.ok d)) ∈ told → ∃ n work,
    heard.filterMap Event.execution? = [(n, o.mode, work)] ∧ .answered n o.mode (.ok d) ∈ heard
  remote : ∀ peer mode e, o.RoutedTo peer heard → .answered peer mode (.error e) ∈ heard → Fits e.message →
    told = [.outcome (.ok (.error (.distribution peer (.remote e.message))))]
  distribution : ∀ peer ce, .outcome (.ok (.error (.distribution peer ce))) ∈ told →
    o.RoutedTo peer heard ∧ ∀ mode work, .effect o.host (.execute mode work) ∉ heard

theorem Arrives.eq {mode : Mode} {work v : Work} (h : Arrives mode work v) (hp : work.Portable) : v = work := by
  have read : Request.decode .string _ _ = _ := Request.decode_submit hp mode
  rw [Arrives, read] at h
  exact (Request.submit_injective (Except.ok.inj h)).symm

namespace Asked

variable {n : NodeId} {asked : List Event}

theorem not_execute (h : Asked n asked) (q : NodeId) (mode : Mode) (work : Work) :
    .effect q (.execute mode work) ∉ asked := by
  intro hm
  obtain ⟨_, he, hq⟩ := h _ hm
  cases he
  cases hq

theorem not_dispatch (h : Asked n asked) (q : NodeId) (transport : Tag) (mode : Mode) (peer : NodeId) (work : Work) :
    .effect q (.dispatch transport mode peer work) ∉ asked := by
  intro hm
  obtain ⟨_, he, hq⟩ := h _ hm
  cases he
  cases hq

theorem not_answered (h : Asked n asked) (q : NodeId) (mode : Mode) (outcome : Outcome) :
    .answered q mode outcome ∉ asked := by
  intro hm
  obtain ⟨_, he, _⟩ := h _ hm
  cases he

theorem host (h : Asked n asked) {q : NodeId} {e : Effect} (hm : .effect q e ∈ asked) : q = n := by
  obtain ⟨_, he, _⟩ := h _ hm
  cases he
  rfl

theorem executions (h : Asked n asked) : asked.filterMap Event.execution? = [] := by
  refine List.filterMap_eq_nil_iff.mpr fun ev hev => ?_
  obtain ⟨e, rfl, hq⟩ := h ev hev
  cases e <;> first | rfl | cases hq

theorem dispatches (h : Asked n asked) : asked.filterMap Event.dispatch? = [] := by
  refine List.filterMap_eq_nil_iff.mpr fun ev hev => ?_
  obtain ⟨e, rfl, hq⟩ := h ev hev
  cases e <;> first | rfl | cases hq

end Asked

namespace Cluster

variable {peer : NodeId} {mode : Mode}

theorem received_ok (peer : NodeId) (r : Reply) : received peer (encodeReply (.ok r)) = .ok r := by
  have hd := (ReplyResult.keeps_ok r).decode
  unfold received encodeReply
  simp only [hd]

/-- However long its text, an error never comes back as anything else. -/
theorem received_failure (peer : NodeId) (text : String) :
    ∃ ce, received peer (encodeReply (.error text)) = .error (.distribution peer ce) := by
  have failed := ReplyResult.decode_error text
  unfold received encodeReply
  dsimp only
  split
  next => exact ⟨_, rfl⟩
  next r hr => exact absurd hr (failed r)
  next => exact ⟨_, rfl⟩

theorem outcomeOf_error (peer : NodeId) (mode : Mode) (e : WorkError) : outcomeOf peer mode (.error e) = .error e := by
  cases mode <;> rfl

theorem outcomeOf_ok {d : Option UInt64} (h : Outcome.Proper mode (.ok d)) :
    outcomeOf peer mode (received peer (encodeReply (Outcome.reply (.ok d)))) = .ok d := by
  have delayed := h.delay d rfl
  cases d with
  | none =>
    rw [Outcome.reply, received_ok]
    cases mode with
    | run => rfl
    | start => simp at delayed
    | schedule => rfl
  | some delay =>
    obtain rfl : mode = .start := delayed.mp rfl
    rw [Outcome.reply, received_ok]
    rfl

theorem outcomeOf_failure (peer : NodeId) (mode : Mode) (e : WorkError) :
    ∃ ce, outcomeOf peer mode (received peer (encodeReply (Outcome.reply (.error e)))) = .error (.distribution peer ce) := by
  obtain ⟨ce, hr⟩ := received_failure peer e.message
  rw [Outcome.reply, hr, outcomeOf_error]
  exact ⟨ce, rfl⟩

end Cluster

namespace Order

variable {o : Order} {asked : List Event}

theorem oneHop_asked (ha : Asked o.host asked) {told : List Answer} (single : told.length ≤ 1)
    (failed : ∀ d, .outcome (.ok (.ok d)) ∉ told)
    (own : ∀ peer ce, .outcome (.ok (.error (.distribution peer ce))) ∉ told) : o.OneHop asked told where
  executed := by simp [ha.executions]
  dispatched := by simp [ha.dispatches]
  answered := single
  questions _ _ he _ := ha.host he
  dispatches n transport mode peer work h := absurd h (ha.not_dispatch n transport mode peer work)
  routed _ _ n mode work h := absurd h (ha.not_execute n mode work)
  stayed _ n mode work h := absurd h (ha.not_execute n mode work)
  answers n mode outcome h := absurd h (ha.not_answered n mode outcome)
  ok d h := absurd h (failed d)
  remote _ mode e _ h := absurd h (ha.not_answered _ mode (.error e))
  distribution peer ce h := absurd h (own peer ce)

/-- The executor of the own host has got the work, and has answered or not. -/
theorem oneHop_stayed (ha : Asked o.host asked) {outcomes : List Outcome} (single : outcomes.length ≤ 1)
    (proper : ∀ x ∈ outcomes, x.Proper o.mode) :
    o.OneHop (asked ++ .effect o.host (.execute o.mode o.work) :: outcomes.map (.answered o.host o.mode))
      (outcomes.map fun x => .outcome (.ok x)) := by
  have executions : (outcomes.map (Event.answered o.host o.mode)).filterMap Event.execution? = [] := by
    simp [List.filterMap_map, Event.execution?, Function.comp_def]
  have dispatches : (outcomes.map (Event.answered o.host o.mode)).filterMap Event.dispatch? = [] := by
    simp [List.filterMap_map, Event.dispatch?, Function.comp_def]
  have unrouted : ∀ n transport mode peer work, .effect n (.dispatch transport mode peer work) ∉
      asked ++ .effect o.host (.execute o.mode o.work) :: outcomes.map (Event.answered o.host o.mode) := by
    simp [ha.not_dispatch]
  refine ⟨?_, ?_, ?_, ?_, ?_, ?_, ?_, ?_, ?_, ?_, ?_⟩
  · rw [List.filterMap_append, ha.executions, List.filterMap_cons, executions]
    exact Nat.le_refl 1
  · rw [List.filterMap_append, ha.dispatches, List.filterMap_cons, dispatches]
    exact Nat.zero_le 1
  · rwa [List.length_map]
  · intro n e he hq
    rcases List.mem_append.mp he with he | he
    · exact ha.host he
    · rcases List.mem_cons.mp he with he | he
      · cases he
        rfl
      · simp at he
  · intro n transport mode peer work h
    exact absurd h (unrouted n transport mode peer work)
  · rintro peer ⟨transport, h⟩
    exact absurd h (unrouted _ transport _ peer _)
  · intro _ n mode work h
    have h : n = o.host ∧ mode = o.mode ∧ work = o.work := by simpa [ha.not_execute] using h
    exact h
  · intro n mode outcome h
    obtain ⟨_, _, rfl, rfl, _⟩ : ∃ a, a ∈ outcomes ∧ o.host = n ∧ o.mode = mode ∧ a = outcome := by
      simpa [ha.not_answered] using h
    exact ⟨o.work, by simp⟩
  · intro d hd
    have hd : Except.ok d ∈ outcomes := by simpa using hd
    refine ⟨o.host, o.work, ?_, ?_⟩
    · rw [List.filterMap_append, ha.executions, List.filterMap_cons, executions]
      rfl
    · simpa [ha.not_answered] using hd
  · rintro peer _ _ ⟨transport, h⟩
    exact absurd h (unrouted _ transport _ peer _)
  · intro peer ce h
    have h : Except.error (.distribution peer ce) ∈ outcomes := by simpa using h
    exact absurd rfl ((proper _ h).own peer ce)

/-- What has become of a work at the peer that it was sent to. -/
inductive Relayed (o : Order) (peer : NodeId) : List Event → Prop
  | nothing : Relayed o peer []
  | given {v : Work} : Arrives o.mode o.work v → Relayed o peer [.effect peer (.execute o.mode v)]
  | answered {v : Work} (outcome : Outcome) : Arrives o.mode o.work v →
      Relayed o peer [.effect peer (.execute o.mode v), .answered peer o.mode outcome]

namespace Relayed

variable {peer : NodeId} {rest : List Event}

theorem executions (h : o.Relayed peer rest) : (rest.filterMap Event.execution?).length ≤ 1 := by
  cases h <;> simp [Event.execution?]

theorem dispatches (h : o.Relayed peer rest) : rest.filterMap Event.dispatch? = [] := by
  cases h <;> rfl

theorem effect_eq (h : o.Relayed peer rest) {n : NodeId} {e : Effect} (he : .effect n e ∈ rest) :
    n = peer ∧ ∃ v, e = .execute o.mode v ∧ Arrives o.mode o.work v := by
  cases h with
  | nothing => cases he
  | given arrives =>
    obtain ⟨hn, rfl⟩ := Event.effect.inj (List.mem_singleton.mp he)
    exact ⟨hn, _, rfl, arrives⟩
  | answered outcome arrives =>
    rcases List.mem_cons.mp he with he | he
    · obtain ⟨hn, rfl⟩ := Event.effect.inj he
      exact ⟨hn, _, rfl, arrives⟩
    · cases List.mem_singleton.mp he

theorem executed_of_answered (h : o.Relayed peer rest) {n : NodeId} {mode : Mode} {outcome : Outcome}
    (ha : .answered n mode outcome ∈ rest) : ∃ v, .effect n (.execute mode v) ∈ rest := by
  cases h with
  | nothing => cases ha
  | given => simp at ha
  | answered =>
    rename_i v _ _
    obtain ⟨rfl, rfl, _⟩ : n = peer ∧ mode = o.mode ∧ _ := by simpa using ha
    exact ⟨v, .head _⟩

/-- One work was sent, and to one peer. -/
theorem sent (ha : Asked o.host asked) {transport : Tag} (h : o.Relayed peer rest) {n q : NodeId} {t : Tag} {mode : Mode}
    {work : Work} (hm : .effect n (.dispatch t mode q work) ∈
      asked ++ .effect o.host (.dispatch transport o.mode peer o.work) :: rest) :
    n = o.host ∧ mode = o.mode ∧ q = peer ∧ work = o.work := by
  rcases List.mem_append.mp hm with hm | hm
  · exact absurd hm (ha.not_dispatch n t mode q work)
  · rcases List.mem_cons.mp hm with hm | hm
    · cases hm
      exact ⟨rfl, rfl, rfl, rfl⟩
    · obtain ⟨_, _, he, _⟩ := h.effect_eq hm
      cases he

theorem given_to (ha : Asked o.host asked) {transport : Tag} (h : o.Relayed peer rest) {n : NodeId} {mode : Mode}
    {work : Work} (hm : .effect n (.execute mode work) ∈
      asked ++ .effect o.host (.dispatch transport o.mode peer o.work) :: rest) :
    n = peer ∧ mode = o.mode ∧ Arrives o.mode o.work work := by
  rcases List.mem_append.mp hm with hm | hm
  · exact absurd hm (ha.not_execute n mode work)
  · rcases List.mem_cons.mp hm with hm | hm
    · cases hm
    · obtain ⟨hn, v, he, arrives⟩ := h.effect_eq hm
      cases he
      exact ⟨hn, rfl, arrives⟩

end Relayed

theorem oneHop_left (ha : Asked o.host asked) {peer : NodeId} (hne : peer ≠ o.host) (transport : Tag)
    {rest : List Event} (relayed : o.Relayed peer rest) {told : List Answer} (single : told.length ≤ 1)
    (ok : ∀ d, .outcome (.ok (.ok d)) ∈ told → ∃ v,
      rest = [.effect peer (.execute o.mode v), .answered peer o.mode (.ok d)])
    (remote : ∀ mode e, .answered peer mode (.error e) ∈ rest → Fits e.message →
      told = [.outcome (.ok (.error (.distribution peer (.remote e.message))))])
    (whose : ∀ q ce, .outcome (.ok (.error (.distribution q ce))) ∈ told → q = peer) :
    o.OneHop (asked ++ .effect o.host (.dispatch transport o.mode peer o.work) :: rest) told := by
  have routed : o.RoutedTo peer (asked ++ .effect o.host (.dispatch transport o.mode peer o.work) :: rest) :=
    ⟨transport, by simp⟩
  refine ⟨?_, ?_, single, ?_, ?_, ?_, ?_, ?_, ?_, ?_, ?_⟩
  · rw [List.filterMap_append, ha.executions]
    exact relayed.executions
  · rw [List.filterMap_append, ha.dispatches, List.filterMap_cons, relayed.dispatches]
    exact Nat.le_refl 1
  · intro n e he hq
    rcases List.mem_append.mp he with he | he
    · exact ha.host he
    · rcases List.mem_cons.mp he with he | he
      · cases he
        rfl
      · obtain ⟨_, _, rfl, _⟩ := relayed.effect_eq he
        cases hq
  · intro n t mode q work h
    obtain ⟨hn, hm, hq, hw⟩ := relayed.sent ha h
    exact ⟨hn, by rw [hq]; exact hne, hm, hw⟩
  · rintro q ⟨t, hq⟩ n mode work h
    obtain ⟨_, _, rfl, _⟩ := relayed.sent ha hq
    obtain ⟨hn, hm, arrives⟩ := relayed.given_to ha h
    exact ⟨hn, hm, arrives.eq⟩
  · intro unrouted
    exact absurd routed (unrouted peer)
  · intro n mode outcome h
    have h : .answered n mode outcome ∈ rest := by simpa [ha.not_answered] using h
    obtain ⟨v, hv⟩ := relayed.executed_of_answered h
    exact ⟨v, by simp [hv]⟩
  · intro d hd
    obtain ⟨v, rfl⟩ := ok d hd
    refine ⟨peer, v, ?_, by simp⟩
    rw [List.filterMap_append, ha.executions]
    rfl
  · rintro q mode e ⟨t, hq⟩ h fits
    obtain ⟨_, _, rfl, _⟩ := relayed.sent ha hq
    refine remote mode e ?_ fits
    simpa [ha.not_answered] using h
  · intro q ce h
    obtain rfl := whose q ce h
    -- only the peer is given the work, and the peer is not the own host
    refine ⟨routed, fun mode work he => ?_⟩
    exact hne (relayed.given_to ha he).1.symm

theorem relayed_of_stage {peer : NodeId} {exchange : Exchange} {rest : List Event}
    (h : Cluster.SubmitStage peer o.mode o.work exchange rest) : o.Relayed peer rest := by
  cases h with
  | travelling => exact .nothing
  | serving _ _ arrives _ => exact .given arrives

theorem unanswered_of_stage {peer : NodeId} {exchange : Exchange} {rest : List Event}
    (h : Cluster.SubmitStage peer o.mode o.work exchange rest) {q : NodeId} {mode : Mode} {outcome : Outcome} :
    .answered q mode outcome ∉ rest := by
  cases h with
  | travelling => simp
  | serving => simp

theorem oneHop_back (ha : Asked o.host asked) {peer : NodeId} (hne : peer ≠ o.host) (transport : Tag)
    {rest : List Event} {r : Except WorkError Reply} (h : Cluster.SubmitEnds peer o.mode o.work rest r) :
    o.OneHop (asked ++ .effect o.host (.dispatch transport o.mode peer o.work) :: rest)
      [.outcome (.ok (Cluster.outcomeOf peer o.mode r))] := by
  cases h with
  | lost e =>
    rw [Cluster.outcomeOf_error]
    refine oneHop_left ha hne transport .nothing (Nat.le_refl 1) (by simp) (by simp) ?_
    intro q ce h
    exact (by simpa using h : q = peer ∧ ce = e).1
  | late e arrives =>
    rw [Cluster.outcomeOf_error]
    refine oneHop_left ha hne transport (.given arrives) (Nat.le_refl 1) (by simp) (by simp) ?_
    intro q ce h
    exact (by simpa using h : q = peer ∧ ce = e).1
  | back arrives proper =>
    rename_i v outcome
    cases outcome with
    | ok d =>
      rw [Cluster.outcomeOf_ok proper]
      refine oneHop_left ha hne transport (.answered _ arrives) (Nat.le_refl 1) ?_ (by simp) (by simp)
      intro d' hd
      obtain rfl : d' = d := by simpa using hd
      exact ⟨v, rfl⟩
    | error e =>
      obtain ⟨ce, failure⟩ := Cluster.outcomeOf_failure peer o.mode e
      have fitting : Fits e.message → ce = .remote e.message := by
        intro fits
        rw [Outcome.reply, Cluster.received_error fits, Cluster.outcomeOf_error] at failure
        cases failure
        rfl
      rw [failure]
      refine oneHop_left ha hne transport (.answered _ arrives) (Nat.le_refl 1) (by simp) ?_ ?_
      · intro mode e' h fits
        obtain ⟨_, rfl⟩ : mode = o.mode ∧ e' = e := by simpa using h
        rw [fitting fits]
      · intro q ce' h
        exact (by simpa using h : q = peer ∧ ce' = ce).1

/-- Wherever an order stands, it has made one hop at most. -/
theorem Journey.oneHop {heard : List Event} {task : Option Task} {said : Option Answer}
    (h : o.Journey heard task said) : o.OneHop heard said.toList := by
  cases h with
  | waiting => exact oneHop_asked (by simp [Asked]) (by simp) (by simp) (by simp)
  | nobody => exact oneHop_asked (by simp [Asked]) (by simp) (by simp) (by simp)
  | aborted abort ha => exact oneHop_asked ha (by simp) (by simp) (by simp)
  | here ha => exact oneHop_stayed ha (show ([] : List Outcome).length ≤ 1 from Nat.zero_le 1) (by simp)
  | done ha proper =>
    rename_i asked outcome
    exact oneHop_stayed ha (show [outcome].length ≤ 1 from Nat.le_refl 1) (by simpa using proper)
  | away transport peer ha hne _ _ stage =>
    refine oneHop_left ha hne transport (relayed_of_stage stage) (by simp) (by simp) ?_ (by simp)
    intro mode e h
    exact absurd h (unanswered_of_stage stage)
  | back transport peer ha hne ends => exact oneHop_back ha hne transport ends

end Order

namespace Course

/-- Every submission of a cluster makes one hop at most, whatever is done and in whatever order. Nothing loud is heard
but while a submission goes on, so no executor gets a work of which no submission knows. -/
theorem run_one_hop {hosts : List (NodeId × Host)} (hosted : ∀ e ∈ hosts, e.2.Sane e.1) (deeds : List Deed) :
    ((start hosts).run deeds).log.map (·.2) = ((start hosts).run deeds).cluster.events ∧
    (∀ s e, (s, e) ∈ ((start hosts).run deeds).log → e.isLoud →
      ∃ t, s = some t ∧ (((start hosts).run deeds).orders.get? t).isSome) ∧
    ∀ t o, ((start hosts).run deeds).orders.get? t = some o →
      o.OneHop (((start hosts).run deeds).heard t) (((start hosts).run deeds).cluster.told t) := by
  have orderly := (Orderly.start hosted).run deeds
  refine ⟨orderly.events, orderly.owners, ?_⟩
  intro t o ho
  obtain ⟨said, told, journey⟩ := orderly.journeys t o ho
  rw [told]
  exact journey.oneHop

/-- A host whose manager sends every work to the first peer with a free worker. -/
def generous (n : NodeId) : Host where
  executor := .script ⟨⟨2, 2⟩, false, false, 7, 0⟩
  manager := some ((Manager.start n .default ⟨2, 2⟩).run
    [.transport ⟨"network", 0⟩ false, .policy ⟨⟨"policy", 0⟩, .always⟩,
      .selector ⟨⟨"selector", 0⟩, .firstAvailable⟩]).drain.2
  book := .start n
  timeout := ⟨5000000⟩

def pair : List (NodeId × Host) :=
  [(⟨"a"⟩, generous ⟨"a"⟩), (⟨"b"⟩, generous ⟨"b"⟩)]

def meeting : List Deed :=
  [.start ⟨"a"⟩, .start ⟨"b"⟩, .go 0, .go 1, .go 2, .go 3, .go 4, .go 5, .go 6, .go 7,
    .begin (.submit ⟨⟨"a"⟩, .start, Manager.parcel⟩)]

theorem run_one_hop_pair :
    (∀ e ∈ pair, e.2.Sane e.1) ∧
    ((start pair).run meeting).cluster.told 8 = [.outcome (.ok (.ok (some 7)))] ∧
    (((start pair).run meeting).heard 8).filterMap Event.execution? = [(⟨"b"⟩, .start, Manager.parcel)] := by
  have sane : ∀ n : NodeId, Fits n.text → (generous n).Sane n :=
    fun n fits => ⟨fits, ⟨_, rfl, rfl, rfl⟩, AddressBook.truthful_start n⟩
  have hosted : ∀ e ∈ pair, e.2.Sane e.1 := by
    intro e he
    rcases List.mem_cons.mp he with rfl | he
    · exact sane _ (by decide)
    · obtain rfl := List.mem_singleton.mp he
      exact sane _ (by decide)
  have portable : Manager.parcel.Portable := ⟨by decide, by decide, by decide, trivial⟩
  have told : ((start pair).run meeting).cluster.told 8 = [.outcome (.ok (.ok (some 7)))] := rfl
  have order : ((start pair).run meeting).orders.get? 8 = some ⟨⟨"a"⟩, .start, Manager.parcel⟩ := rfl
  have hop := (run_one_hop hosted meeting).2.2 8 _ order
  have routed : Order.RoutedTo ⟨⟨"a"⟩, .start, Manager.parcel⟩ ⟨"b"⟩ (((start pair).run meeting).heard 8) :=
    ⟨⟨"network", 0⟩, .tail _ (.tail _ (.head _))⟩
  obtain ⟨n, work, executed, _⟩ := hop.ok (some 7) (by rw [told]; exact .head _)
  have given : .effect n (.execute .start work) ∈ ((start pair).run meeting).heard 8 := by
    have hm : (n, .start, work) ∈ (((start pair).run meeting).heard 8).filterMap Event.execution? := by
      rw [executed]
      exact .head _
    obtain ⟨ev, hev, he⟩ := List.mem_filterMap.mp hm
    unfold Event.execution? at he
    split at he
    next => cases he; exact hev
    next => cases he
  obtain ⟨rfl, _, same⟩ := hop.routed ⟨"b"⟩ routed n .start work given
  obtain rfl := same portable
  exact ⟨hosted, told, executed⟩

end Course

end Workshare
