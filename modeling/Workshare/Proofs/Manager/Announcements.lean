import Workshare.Proofs.Manager.Balance

namespace Workshare

/-- A pool and its free workers, as far as an effect announces them. -/
def Effect.announced? : Effect → Option (Bool × UInt64)
  | .announce _ _ long free => some (long, free)
  | _ => none

/-- A move by which node `n` does not speak of its own workers. -/
def Move.Discreet (n : NodeId) : Move → Prop
  | .hear (.free p _ _) => p ≠ n
  | .submit _ _ _ => False
  | .submitHere _ _ _ => False
  | .complete _ _ _ => False
  | .announceAll _ => False
  | _ => True

def Change.Discreet (n : NodeId) : Change → Prop
  | .emit e => e.announced? = none
  | .publish _ _ => False
  | .hear notice => Move.Discreet n (.hear notice)
  | _ => True

theorem Move.Makes.discreet {n : NodeId} {x : Move} {c : Change} (h : x.Makes c) (hx : x.Discreet n) : c.Discreet n := by
  have spoken : x.publishes = false := by
    cases x <;> first | rfl | exact hx.elim
  cases h with
  | publish speaks => cases spoken.symm.trans speaks
  | announce speaks => cases spoken.symm.trans speaks
  | ask => exact hx.elim
  | handOver submitted handed =>
    cases x with
    | submit free mode work => exact hx.elim
    | submitHere free mode work => exact hx.elim
    | _ => cases submitted
  | hear => exact hx
  | leave => trivial
  | record => trivial
  | _ => first | rfl | trivial

theorem Move.discreet_hear {n : NodeId} {notice : Notice} (h : ∀ p long free, notice = .free p long free → p ≠ n) :
    Move.Discreet n (.hear notice) := by
  cases notice with
  | free p long free => exact h p long free rfl
  | _ => trivial

namespace Manager

/-- The free workers of the own node, as the capacity table has them. -/
def ownFree (m : Manager) : Free :=
  (m.capacity.get? m.id).getD .none

/-- The same manager later, which in between has said these free workers of its own pools, one after the other. -/
structure Speaks (m m' : Manager) (said : List (Bool × UInt64)) : Prop where
  id : m'.id = m.id
  own : m'.ownFree = said.foldl (fun free s => free.setPool s.1 s.2) m.ownFree
  transport : m'.transport = none → m.transport = none
  told : ∃ news, m'.outbox = m.outbox ++ news ∧
    news.filterMap Effect.announced? = if m'.transport.isSome then said else []

/-- The same manager later, which in between has not spoken of its own workers. -/
structure Discreet (m m' : Manager) : Prop where
  id : m'.id = m.id
  own : m'.ownFree = m.ownFree
  transport : m'.transport = none → m.transport = none
  silent : ∃ news, m'.outbox = m.outbox ++ news ∧ ∀ e ∈ news, e.announced? = none

namespace Discreet

theorem refl (m : Manager) : Discreet m m :=
  ⟨rfl, rfl, fun h => h, [], (List.append_nil _).symm, nofun⟩

theorem trans {a b c : Manager} (h : Discreet a b) (h' : Discreet b c) : Discreet a c := by
  obtain ⟨news, hn, silent⟩ := h.silent
  obtain ⟨more, hm, silent'⟩ := h'.silent
  refine ⟨h'.id.trans h.id, h'.own.trans h.own, fun none => h.transport (h'.transport none), news ++ more, ?_, ?_⟩
  · rw [hm, hn, List.append_assoc]
  · intro e he
    rcases List.mem_append.mp he with he | he
    · exact silent e he
    · exact silent' e he

theorem speaks {m m' : Manager} (h : Discreet m m') : Speaks m m' [] := by
  obtain ⟨news, hn, silent⟩ := h.silent
  refine ⟨h.id, h.own, h.transport, news, hn, ?_⟩
  rw [ite_self]
  exact List.filterMap_eq_nil_iff.mpr silent

/-- Only the own entry counts, and whether there is a transport. -/
theorem of_eq {m m' : Manager} (id : m'.id = m.id) (capacity : m'.capacity = m.capacity)
    (transport : m'.transport = m.transport) (outbox : m'.outbox = m.outbox) : Discreet m m' := by
  refine ⟨id, ?_, fun h => transport ▸ h, [], by rw [outbox, List.append_nil], nofun⟩
  rw [ownFree, capacity, id]
  rfl

theorem emit (m : Manager) {e : Effect} (he : e.announced? = none) : Discreet m (m.emit e) := by
  refine ⟨rfl, rfl, fun h => h, [e], rfl, ?_⟩
  intro e' he'
  rw [List.mem_singleton.mp he']
  exact he

theorem announced?_notification {l : Listener} {notice : Notice} {e : Effect} (h : l.notification? notice = some e) :
    e.announced? = none := by
  obtain ⟨tag, _, rfl⟩ := Option.map_eq_some_iff.mp h
  rfl

/-- The table may change before a notice is told, as long as the own entry stays. -/
theorem told {m m₁ : Manager} (id : m₁.id = m.id) (own : m₁.ownFree = m.ownFree)
    (transport : m₁.transport = m.transport) (outbox : m₁.outbox = m.outbox) (notice : Notice) :
    Discreet m (m₁.tell notice) := by
  rw [tell_eq]
  refine ⟨id, own, fun h => transport ▸ h, m₁.listeners.filterMap (·.notification? notice), ?_, ?_⟩
  · show m₁.outbox ++ _ = _
    rw [outbox]
  · intro e he
    obtain ⟨l, _, hl⟩ := List.mem_filterMap.mp he
    exact announced?_notification hl

theorem addListener (m : Manager) (l : Listener) : Discreet m (m.addListener l) := by
  rw [addListener_eq]
  split
  next => exact refl m
  next =>
    refine ⟨rfl, rfl, fun h => h, _, rfl, ?_⟩
    intro e he
    obtain ⟨notice, _, hn⟩ := List.mem_filterMap.mp he
    exact announced?_notification hn

theorem record (m : Manager) (c : Counter) : Discreet m (m.record c) := by
  rw [record_eq]
  refine ⟨rfl, rfl, fun h => h, _, rfl, ?_⟩
  intro e he
  obtain ⟨tag, _, rfl⟩ := Option.map_eq_some_iff.mp (Option.mem_toList.mp he)
  rfl

/-- A notice leaves the own entry alone unless it tells of the own workers. -/
theorem ownFree_hear {m : Manager} {notice : Notice} (other : Move.Discreet m.id (.hear notice))
    (stays : notice ≠ .leave m.id) :
    ((m.capacity.hear notice).get? m.id).getD .none = m.ownFree := by
  unfold CapacityTable.hear ownFree
  cases notice with
  | join n =>
    dsimp only
    rw [CapacityTable.get?_register]
    split
    next => rfl
    next => rfl
  | leave n =>
    dsimp only
    rw [CapacityTable.get?_remove, if_neg fun own => stays (congrArg Notice.leave own.symm)]
  | free n long free =>
    dsimp only
    rw [CapacityTable.get?_updatePool, if_neg (Ne.symm other)]
  | delta origin c => rfl

theorem hear (m : Manager) {notice : Notice} (discreet : Move.Discreet m.id (.hear notice)) :
    Discreet m (m.hear notice) := by
  rcases m.hear_cases notice with e | ⟨stays, e⟩
  · rw [e]
    exact refl m
  · rw [e]
    refine told (by rfl) ?_ (by rfl) (by rfl) notice
    exact ownFree_hear discreet stays

/-- Whose own workers are meant does not change, as no move changes the id. -/
theorem persists (n : NodeId) : Persists (Change.Discreet n) fun m m' => m.id = n → Discreet m m' where
  refl m _ := refl m
  trans h h' own := (h own).trans (h' ((h own).id.trans own))
  change m x hx own := by
    cases x with
    | emit e => exact emit m hx
    | record c => exact record m c
    | publish long free => exact hx.elim
    | hear notice => exact hear m (own ▸ hx)
    | listener l => exact addListener m l
    | transport tag => exact ⟨rfl, rfl, nofun, [], (List.append_nil _).symm, nofun⟩
    | _ => exact of_eq rfl rfl rfl rfl

theorem route (m : Manager) (work : Work) : Discreet m (m.route work).1 := by
  refine (persists m.id).route m work (fun e asked => ?_) rfl
  cases e <;> first | rfl | cases asked

theorem move (m : Manager) {x : Move} (discreet : x.Discreet m.id) : Discreet m (m.move x) :=
  (persists m.id).move m (fun made => made.discreet discreet) rfl

end Discreet

namespace Speaks

theorem after {m m₁ m' : Manager} {said : List (Bool × UInt64)} (h : Discreet m m₁) (h' : Speaks m₁ m' said) :
    Speaks m m' said := by
  obtain ⟨news, hn, silent⟩ := h.silent
  obtain ⟨more, hm, told⟩ := h'.told
  refine ⟨h'.id.trans h.id, h.own ▸ h'.own, fun none => h.transport (h'.transport none), news ++ more, ?_, ?_⟩
  · rw [hm, hn, List.append_assoc]
  · rw [List.filterMap_append, List.filterMap_eq_nil_iff.mpr silent, List.nil_append]
    exact told

theorem before {m m₁ m' : Manager} {said : List (Bool × UInt64)} (h : Speaks m m₁ said) (h' : Discreet m₁ m')
    (same : m'.transport = m₁.transport) : Speaks m m' said := by
  obtain ⟨news, hn, told⟩ := h.told
  obtain ⟨more, hm, silent⟩ := h'.silent
  refine ⟨h'.id.trans h.id, h'.own.trans h.own, fun none => h.transport (h'.transport none), news ++ more, ?_, ?_⟩
  · rw [hm, hn, List.append_assoc]
  · rw [List.filterMap_append, List.filterMap_eq_nil_iff.mpr silent, List.append_nil, same]
    exact told

variable {m : Manager} (member : m.members.contains m.id)

include member

/-- The own entry is set, and only listeners hear of it. -/
theorem publish (long : Bool) (free : UInt64) :
    (m.updateFree m.id long free).ownFree = m.ownFree.setPool long free ∧
      (m.updateFree m.id long free).id = m.id ∧ (m.updateFree m.id long free).transport = m.transport ∧
      (m.updateFree m.id long free).members = m.members ∧
      ∃ news, (m.updateFree m.id long free).outbox = m.outbox ++ news ∧ ∀ e ∈ news, e.announced? = none := by
  have set : (m.capacity.updatePool m.id long free).get? m.id = some (m.ownFree.setPool long free) := by
    rw [CapacityTable.get?_updatePool, if_pos rfl]
    rfl
  unfold updateFree
  rw [if_pos member, tell_eq]
  refine ⟨?_, rfl, rfl, rfl, _, rfl, ?_⟩
  · unfold ownFree
    dsimp only
    rw [set]
    rfl
  · intro e he
    obtain ⟨l, _, hl⟩ := List.mem_filterMap.mp he
    exact Discreet.announced?_notification hl

theorem announce (long : Bool) (free : UInt64) : Speaks m (m.announce long free) [(long, free)] := by
  obtain ⟨own, id, transport, _, news, hn, silent⟩ := publish member long free
  unfold Manager.announce
  dsimp only
  split
  next tag ht =>
    refine ⟨id, own, fun h => ?_, news ++ [.announce tag (m.updateFree m.id long free).id long free], ?_, ?_⟩
    · rw [← transport]
      exact h
    · show (m.updateFree m.id long free).outbox ++ _ = _
      rw [hn, List.append_assoc]
    · have some : ((m.updateFree m.id long free).emit
          (.announce tag (m.updateFree m.id long free).id long free)).transport.isSome := by
        show (m.updateFree m.id long free).transport.isSome
        rw [ht]
        rfl
      rw [if_pos some, id, List.filterMap_append, List.filterMap_eq_nil_iff.mpr silent]
      simp [Effect.announced?]
  next ht =>
    refine ⟨id, own, fun h => transport ▸ h, news, hn, ?_⟩
    rw [ht, List.filterMap_eq_nil_iff.mpr silent]
    rfl

theorem announceAll (free : Free) : Speaks m (m.announceAll free) [(false, free.short), (true, free.long)] := by
  obtain ⟨own, id, transport, members, news, hn, silent⟩ := publish member false free.short
  have member' : (m.updateFree m.id false free.short).members.contains (m.updateFree m.id false free.short).id := by
    rw [members, id]
    exact member
  obtain ⟨own', id', transport', _, more, hm, silent'⟩ := publish member' true free.long
  rw [id] at own' id' transport' hm
  unfold Manager.announceAll
  dsimp only
  generalize (m.updateFree m.id false free.short).updateFree m.id true free.long = m' at own' id' transport' hm
  have quiet : (news ++ more).filterMap Effect.announced? = [] := by
    refine List.filterMap_eq_nil_iff.mpr fun e he => ?_
    rcases List.mem_append.mp he with he | he
    · exact silent e he
    · exact silent' e he
  have outbox : m'.outbox = m.outbox ++ (news ++ more) := by rw [hm, hn, List.append_assoc]
  have own : m'.ownFree = (m.ownFree.setPool false free.short).setPool true free.long := by rw [own', own]
  split
  next tag ht =>
    refine ⟨id', own, fun h => ?_, news ++ more ++
      [.announce tag m'.id false free.short, .announce tag m'.id true free.long], ?_, ?_⟩
    · rw [← transport, ← transport']
      exact h
    · show m'.outbox ++ [_] ++ [_] = _
      rw [outbox]
      simp
    · have some : ((m'.emit (.announce tag m'.id false free.short)).emit
          (.announce tag m'.id true free.long)).transport.isSome := by
        show m'.transport.isSome
        rw [ht]
        rfl
      rw [if_pos some, List.filterMap_append, quiet, id']
      simp [Effect.announced?]
  next ht =>
    refine ⟨id', own, fun h => ?_, news ++ more, outbox, ?_⟩
    · rw [← transport, ← transport']
      exact h
    · rw [ht, quiet]
      rfl

/-- Before a work is handed over one free worker less is announced, if there is one. -/
theorem handOver (free : Free) (mode : Mode) (work : Work) : Speaks m (m.handOver free mode work)
    [(work.longRunning, if free.ofPool work.longRunning = 0 then 0 else free.ofPool work.longRunning - 1)] :=
  (announce member work.longRunning _).before (.emit _ rfl) rfl

theorem complete (free : Free) (long success : Bool) :
    Speaks m (m.complete free long success) [(long, free.ofPool long)] := by
  have counted : ∀ c, (m.record c).members.contains (m.record c).id := by
    intro c
    rw [(Steady.record m c).members, (Steady.record m c).id]
    exact member
  exact (announce (counted _) long (free.ofPool long)).after (.record m _)

/-- A routed work that stays is announced as one that is handed over, and of others nothing is said. -/
theorem submit (free : Free) (mode : Mode) (work : Work) :
    (m.submit free mode work).2 = .ok .execute ∧ Speaks m (m.submit free mode work).1
      [(work.longRunning, if free.ofPool work.longRunning = 0 then 0 else free.ofPool work.longRunning - 1)] ∨
    (m.submit free mode work).2 ≠ .ok .execute ∧ Discreet m (m.submit free mode work).1 := by
  have routed := Discreet.route m work
  have still : (m.route work).1.members.contains (m.route work).1.id := by
    rw [(Steady.route m work).members, (Steady.route m work).id]
    exact member
  unfold Manager.submit
  split
  next heq =>
    rw [heq] at routed
    exact .inr ⟨nofun, routed⟩
  next heq =>
    rw [heq] at routed still
    exact .inl ⟨rfl, (handOver still free mode work).after routed⟩
  next heq =>
    rw [heq] at routed
    exact .inr ⟨nofun, routed.trans (.emit _ rfl)⟩

end Speaks

end Manager

end Workshare
