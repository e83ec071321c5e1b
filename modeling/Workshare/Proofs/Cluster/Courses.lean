import Workshare.Proofs.Cluster.Deeds

namespace Workshare

open Cluster

theorem Order.Journey.unanswered {o : Order} {heard : List Event} {task : Task} {said : Option Answer}
    (h : o.Journey heard (some task) said) : said = none := by
  cases h <;> rfl

namespace Course

variable {r : Course}

theorem heard_fresh (h : r.Dated) {t : Ticket} (ht : r.cluster.fresh ≤ t) : r.heard t = [] := by
  have nothing : r.log.filter (·.1 = some t) = [] := by
    refine List.filter_eq_nil_iff.mpr ?_
    rintro ⟨s, e⟩ he hs
    obtain rfl : s = some t := by simpa using hs
    exact Nat.not_lt.mpr ht (h.doers t e he)
  rw [heard, nothing]
  rfl

theorem told_fresh (h : r.Dated) {t : Ticket} (ht : r.cluster.fresh ≤ t) : r.cluster.told t = [] := by
  have nothing : r.cluster.answers.filter (·.1 = t) = [] := by
    refine List.filter_eq_nil_iff.mpr ?_
    rintro ⟨v, a⟩ ha hv
    obtain rfl : v = t := by simpa using hv
    exact Nat.not_lt.mpr ht (h.answers v a ha)
  rw [Cluster.told, nothing]
  rfl

theorem stranger_fresh (h : r.Dated) {t : Ticket} (ht : r.cluster.fresh ≤ t) : r.orders.get? t = none := by
  cases ho : r.orders.get? t with
  | none => rfl
  | some o => exact absurd (h.tickets t o ho) (Nat.not_lt.mpr ht)

/-- Only the task that goes on uses a ticket of which the rest does not know. -/
theorem Dated.extend (h : r.Dated) {own : Option Ticket} {c' : Cluster} {loud : List Event}
    (change : Cluster.Change own r.cluster c' loud) (young : ∀ t, own = some t → t < c'.fresh)
    {replies : List (Ticket × Answer)} (answers : c'.answers = r.cluster.answers ++ replies)
    (mine : ∀ e ∈ replies, own = some e.1) {orders : Table Ticket Order}
    (kept : ∀ v, own ≠ some v → orders.get? v = r.orders.get? v) (news : List Event) :
    Dated ⟨c', r.log ++ news.map (own, ·), orders⟩ := by
  have later : ∀ {v}, v < r.cluster.fresh → v < c'.fresh := fun hv => Nat.lt_of_lt_of_le hv change.fresh
  refine ⟨?_, ?_, ?_, ?_⟩
  · intro v task hv
    by_cases hown : own = some v
    · exact young v hown
    · rcases change.newcomers v task hown hv with hv | ⟨_, hlt, _⟩
      · exact later (h.tasks v task hv)
      · exact hlt
  · intro v a ha
    have ha : (v, a) ∈ r.cluster.answers ++ replies := answers ▸ ha
    rcases List.mem_append.mp ha with ha | ha
    · exact later (h.answers v a ha)
    · exact young v (mine (v, a) ha)
  · intro v e he
    rcases List.mem_append.mp he with he | he
    · exact later (h.doers v e he)
    · obtain ⟨_, _, hx⟩ := List.mem_map.mp he
      exact young v (Prod.mk.inj hx).1
  · intro v o ho
    by_cases hown : own = some v
    · exact young v hown
    · exact later (h.tickets v o (kept v hown ▸ ho))

namespace Orderly

theorem start {hosts : List (NodeId × Host)} (hosted : ∀ e ∈ hosts, e.2.Sane e.1) : (Course.start hosts).Orderly where
  tasks _ _ h := by cases h
  answers _ _ h := by cases h
  doers _ _ h := by cases h
  tickets _ _ h := by cases h
  sane n h hn := hosted (n, h) (AddressBook.get?_ofList hn)
  strangers _ _ h := by cases h
  journeys _ _ h := by cases h
  owners _ _ h := by cases h
  events := rfl

/-- Something has gone on, which was the business of one task or of none. If this task is an order, it has come
further; if it is none, it has kept quiet. -/
theorem extend (h : r.Orderly) {own : Option Ticket} {c' : Cluster} {loud : List Event}
    (change : Cluster.Change own r.cluster c' loud) (young : ∀ t, own = some t → t < c'.fresh)
    {replies : List (Ticket × Answer)} (answers : c'.answers = r.cluster.answers ++ replies)
    (mine : ∀ e ∈ replies, own = some e.1) {orders : Table Ticket Order}
    (kept : ∀ v, own ≠ some v → orders.get? v = r.orders.get? v)
    (grown : ∀ v, (r.orders.get? v).isSome → (orders.get? v).isSome) (quiet : own = none → loud = [])
    (stranger : ∀ t, own = some t → orders.get? t = none →
      loud = [] ∧ ∀ task, c'.tasks.get? t = some task → task.Harmless)
    (order : ∀ t o, own = some t → orders.get? t = some o → ∃ said : Option Answer,
      c'.told t = said.toList ∧ o.Journey (r.heard t ++ loud) (c'.tasks.get? t) said) :
    Orderly ⟨c', r.log ++ (c'.events.drop r.cluster.events.length).map (own, ·), orders⟩ := by
  obtain ⟨news, hn, hl⟩ := change.events
  have hd : c'.events.drop r.cluster.events.length = news := by rw [hn, List.drop_left]
  rw [hd]
  -- everywhere the task whose business it was stands apart, and all others are as they were
  refine ⟨h.toDated.extend change young answers mine kept news, change.sane, ?_, ?_, ?_, ?_⟩
  · intro v task hv ho
    by_cases hown : own = some v
    · exact (stranger v hown ho).2 task hv
    · rcases change.newcomers v task hown hv with hv | ⟨_, _, harmless⟩
      · exact h.strangers v task hv (kept v hown ▸ ho)
      · exact harmless
  · intro v o ho
    rw [heard_append, filter_doer]
    by_cases hown : own = some v
    · rw [if_pos hown, hl]
      exact order v o hown ho
    · have ho : r.orders.get? v = some o := kept v hown ▸ ho
      obtain ⟨said, told, journey⟩ := h.journeys v o ho
      refine ⟨said, (told_of_others answers mine hown).trans told, ?_⟩
      rw [if_neg hown]
      show o.Journey (r.heard v ++ []) (c'.tasks.get? v) said
      rw [List.append_nil, change.kept v (h.tickets v o ho) hown]
      exact journey
  · intro s e he loudly
    rcases List.mem_append.mp he with he | he
    · obtain ⟨v, hs, ho⟩ := h.owners s e he loudly
      exact ⟨v, hs, grown v ho⟩
    · obtain ⟨e', he', hx⟩ := List.mem_map.mp he
      obtain ⟨rfl, rfl⟩ := Prod.mk.inj hx
      have heard : e' ∈ loud := hl ▸ List.mem_filter.mpr ⟨he', loudly⟩
      cases own with
      | none =>
        rw [quiet rfl] at heard
        cases heard
      | some t =>
        refine ⟨t, rfl, ?_⟩
        cases ho : orders.get? t with
        | none =>
          rw [(stranger t rfl ho).1] at heard
          cases heard
        | some o => rfl
  · show (r.log ++ news.map (own, ·)).map Prod.snd = c'.events
    rw [hn, List.map_append, h.events, events_doer]

theorem works (h : r.Orderly) {c' : Cluster} (w : Works r.cluster c' []) :
    Orderly ⟨c', r.log ++ (c'.events.drop r.cluster.events.length).map ((none : Option Ticket), ·), r.orders⟩ := by
  have answers : c'.answers = r.cluster.answers ++ [] := by rw [w.answers, List.append_nil]
  refine h.extend w.toChange nofun answers (by simp) (fun _ _ => rfl) (fun _ ho => ho) (fun _ => rfl) ?_ ?_
  · intro t ht
    cases ht
  · intro t o ht
    cases ht

theorem turn (h : r.Orderly) {t : Ticket} {c' : Cluster} {loud : List Event} {left : Option Task}
    {said : Option Answer} (turn : Turn t r.cluster c' loud left said) (ht : t < c'.fresh)
    {orders : Table Ticket Order} (kept : ∀ v, v ≠ t → orders.get? v = r.orders.get? v)
    (grown : (r.orders.get? t).isSome → (orders.get? t).isSome)
    (stranger : orders.get? t = none → loud = [] ∧ ∀ task, left = some task → task.Harmless)
    (order : ∀ o, orders.get? t = some o → r.cluster.told t = [] ∧ o.Journey (r.heard t ++ loud) left said) :
    Orderly ⟨c', r.log ++ (c'.events.drop r.cluster.events.length).map (some t, ·), orders⟩ := by
  have mine : ∀ e ∈ (said.map (t, ·)).toList, some t = some e.1 := by
    intro e he
    obtain ⟨_, _, rfl⟩ := Option.map_eq_some_iff.mp (Option.mem_toList.mp he)
    rfl
  refine h.extend turn.toChange ?_ turn.answers mine ?_ ?_ nofun ?_ ?_
  · rintro _ ⟨⟩
    exact ht
  · intro v hv
    exact kept v fun he => hv (congrArg some he.symm)
  · intro v ho
    by_cases hv : v = t
    · rw [hv] at ho ⊢
      exact grown ho
    · rw [kept v hv]
      exact ho
  · rintro _ ⟨⟩ hn
    rw [turn.task]
    exact stranger hn
  · rintro _ o ⟨⟩ ho
    obtain ⟨told, journey⟩ := order o ho
    rw [turn.task]
    exact ⟨said, (told_of_own turn.answers).trans (by rw [told, List.nil_append]), journey⟩

theorem born (h : r.Orderly) (w : Wish) {c' : Cluster} {loud : List Event} {left : Option Task}
    {said : Option Answer} (turn : Turn r.cluster.fresh r.cluster c' loud left said)
    (ht : r.cluster.fresh < c'.fresh)
    (stranger : w.order? = none → loud = [] ∧ ∀ task, left = some task → task.Harmless)
    (order : ∀ o, w.order? = some o → o.Journey loud left said) :
    Orderly ⟨c', r.log ++ (c'.events.drop r.cluster.events.length).map (some r.cluster.fresh, ·),
      match w.order? with
      | some o => r.orders.insert r.cluster.fresh o
      | none => r.orders⟩ := by
  have vacant := stranger_fresh h.toDated (Nat.le_refl _)
  cases ho : w.order? with
  | none =>
    refine h.turn turn ht (fun _ _ => rfl) (fun hs => hs) (fun _ => stranger ho) ?_
    intro o ho
    have ho : r.orders.get? r.cluster.fresh = some o := ho
    rw [vacant] at ho
    cases ho
  | some o =>
    have orders : ∀ v, (r.orders.insert r.cluster.fresh o).get? v =
        if v = r.cluster.fresh then some o else r.orders.get? v := fun v => Table.get?_insert _ _ _ _
    refine h.turn turn ht ?_ ?_ ?_ ?_
    · intro v hv
      rw [orders, if_neg hv]
    · intro _
      rw [orders, if_pos rfl]
      rfl
    · intro hn
      rw [orders, if_pos rfl] at hn
      cases hn
    · intro o' ho'
      rw [orders, if_pos rfl] at ho'
      cases ho'
      refine ⟨told_fresh h.toDated (Nat.le_refl _), ?_⟩
      rw [heard_fresh h.toDated (Nat.le_refl _), List.nil_append]
      exact order o ho

theorem later (h : r.Orderly) (w : Wish) : (r.take (.later w)).Orderly := by
  refine h.born w (turn_spawn h.sane _) (Nat.lt_succ_self _) ?_ ?_
  · intro hw
    refine ⟨rfl, ?_⟩
    rintro _ ⟨⟩
    exact Wish.harmless hw _
  · intro o hw
    cases w with
    | submit o' => cases hw; exact .waiting
    | _ => cases hw

theorem begin (h : r.Orderly) (w : Wish) : (r.take (.begin w)).Orderly := by
  -- the ticket is taken before the task goes on for the first time
  have set : Works r.cluster
      { r.cluster with fresh := r.cluster.fresh + 1, front := some r.cluster.fresh, called := false } [] :=
    .of_eq h.sane (Nat.le_succ _) rfl rfl rfl rfl
  have room : r.cluster.fresh < r.cluster.fresh + 1 := Nat.lt_succ_self _
  cases ho : w.order? with
  | none =>
    obtain ⟨left, said, turn, harmless⟩ := calm_resume set.sane room (Wish.harmless ho r.cluster.now)
    have turned := turn.after set
    refine h.born w turned (Nat.lt_of_lt_of_le room turn.fresh) (fun _ => ⟨rfl, harmless⟩) ?_
    intro o hw
    rw [ho] at hw
    cases hw
  | some o =>
    obtain rfl : w = .submit o := by cases w <;> cases ho; rfl
    obtain ⟨loud, left, said, turn, journey⟩ := advances_resume set.sane r.cluster.fresh (.waiting : o.Journey [] _ _)
    have turned := turn.after set
    refine h.born (.submit o) turned (Nat.lt_of_lt_of_le room turn.fresh) (fun hw => (by cases hw)) ?_
    intro o' hw
    cases hw
    exact journey

theorem go (h : r.Orderly) (t : Ticket) : (r.take (.go t)).Orderly := by
  cases ht : r.cluster.tasks.get? t with
  | none =>
    have nothing : r.cluster.does (.go t) = r.cluster := by
      show r.cluster.poll t = _
      rw [poll, ht]
    have same : r.take (.go t) = r := by
      rw [take, nothing, List.drop_length]
      simp [Deed.order?]
    rw [same]
    exact h
  | some task =>
    have hlt := h.tasks t task ht
    have goes : r.cluster.does (.go t) = r.cluster.resume t task := by
      show r.cluster.poll t = _
      rw [poll, ht]
    rw [take, goes]
    cases ho : r.orders.get? t with
    | none =>
      obtain ⟨left, said, turn, harmless⟩ := calm_resume h.sane hlt (h.strangers t task ht ho)
      refine h.turn turn (Nat.lt_of_lt_of_le hlt turn.fresh) (fun _ _ => rfl) (fun hs => hs) (fun _ => ⟨rfl, harmless⟩) ?_
      intro o hs
      have hs : r.orders.get? t = some o := hs
      rw [ho] at hs
      cases hs
    | some o =>
      obtain ⟨said, told, journey⟩ := h.journeys t o ho
      rw [ht] at journey
      obtain rfl := journey.unanswered
      obtain ⟨loud, left, said, turn, further⟩ := advances_resume h.sane t journey
      refine h.turn turn (Nat.lt_of_lt_of_le hlt turn.fresh) (fun _ _ => rfl) (fun hs => hs) ?_ ?_
      · intro hn
        have hn : r.orders.get? t = none := hn
        rw [ho] at hn
        cases hn
      · intro o' ho'
        have ho' : r.orders.get? t = some o' := ho'
        rw [ho] at ho'
        cases ho'
        exact ⟨told, further⟩

theorem take (h : r.Orderly) (d : Deed) : (r.take d).Orderly := by
  cases d with
  | later w => exact h.later w
  | begin w => exact h.begin w
  | go t => exact h.go t
  | _ => exact h.works (works_does h.sane rfl)

theorem run (h : r.Orderly) (deeds : List Deed) : (r.run deeds).Orderly := by
  induction deeds generalizing r with
  | nil => exact h
  | cons d deeds ih => exact ih (h.take d)

end Orderly

end Course

end Workshare
