import Workshare.Proofs.Manager.Routing
import Workshare.Proofs.Manager.Membership

namespace Workshare

namespace CapacityTable

/-- The table of somebody who begins with nothing and goes by notices alone. -/
def ofNotices (ns : List Notice) : CapacityTable :=
  ns.foldl hear empty

end CapacityTable

def Effect.noticeTo? (tag : Tag) : Effect → Option Notice
  | .notify listener notice => if listener = tag then some notice else none
  | _ => none

def Move.brings? : Move → Option Listener
  | .policy ⟨tag, .waterMark mark⟩ => some (.waterMark tag mark)
  | .policy ⟨tag, rule⟩ => if rule.listens then some (.external tag) else none
  | .selector ⟨tag, rule⟩ => if rule.listens then some (.external tag) else none
  | .transport tag listens => if listens then some (.external tag) else none
  | .listener l => some l
  | _ => none

namespace Listener

@[simp] theorem tag?_hear (l : Listener) (notice : Notice) : (l.hear notice).tag? = l.tag? := by
  cases l <;> rfl

@[simp] theorem tag?_foldl_hear (l : Listener) (ns : List Notice) : (ns.foldl hear l).tag? = l.tag? := by
  induction ns generalizing l with
  | nil => rfl
  | cons n ns ih => rw [List.foldl_cons, ih, tag?_hear]

end Listener

namespace Manager

def tags (m : Manager) : List Tag :=
  m.listeners.filterMap (·.tag?)

def received (m : Manager) (tag : Tag) : List Notice :=
  m.outbox.filterMap (·.noticeTo? tag)

/-- One free worker less in the pool of a work, as it is announced before the work is handed over. -/
def lessOne (m : Manager) (free : Free) (work : Work) : Notice :=
  .free m.id work.longRunning
    (if free.ofPool work.longRunning = 0 then 0 else free.ofPool work.longRunning - 1)

/-- The notices that a move tells. What is said of strangers is passed on to nobody, nor is the own leave. -/
def news (m : Manager) : Move → List Notice
  | .hear (.join n) => [.join n]
  | .hear (.leave n) => if n = m.id then [] else [.leave n]
  | .hear (.free n long count) => if m.members.contains n then [.free n long count] else []
  | .hear (.delta origin c) => if m.members.contains origin then [.delta origin c] else []
  | .submit free _ work => if (m.route work).2.toOption = some .execute then [m.lessOne free work] else []
  | .submitHere free _ work => [m.lessOne free work]
  | .complete free long _ => [.free m.id long (free.ofPool long)]
  | .announceAll free => [.free m.id false free.short, .free m.id true free.long]
  | .disband => (m.members.peers m.id).map .leave
  | _ => []

/-- The same manager later, which in between has told these notices to each of its listeners. -/
structure Relays (m m' : Manager) (ns : List Notice) : Prop where
  listeners : m'.listeners = m.listeners.map (ns.foldl Listener.hear ·)
  capacity : m'.capacity = ns.foldl CapacityTable.hear m.capacity
  received : ∀ tag, m'.received tag = m.received tag ++ ns.flatMap (List.replicate (m.tags.count tag) ·)

/-- The same manager later, to which in between a listener was added. -/
structure Enrols (m m' : Manager) (l : Listener) : Prop where
  listeners : m'.listeners =
    if m.listeners.any (·.tag? = l.tag?) then m.listeners
    else m.listeners ++ [(replay m.capacity.entries).foldl Listener.hear l]
  capacity : m'.capacity = m.capacity
  received : ∀ tag, m'.received tag =
    m.received tag ++ if l.tag? = some tag ∧ tag ∉ m.tags then replay m.capacity.entries else []

theorem mem_tags {m : Manager} {tag : Tag} : tag ∈ m.tags ↔ ∃ l ∈ m.listeners, l.tag? = some tag :=
  List.mem_filterMap

theorem any_tag {m : Manager} {l : Listener} {tag : Tag} (h : l.tag? = some tag) :
    m.listeners.any (·.tag? = l.tag?) = decide (tag ∈ m.tags) := by
  rw [h, Bool.eq_iff_iff, decide_eq_true_eq, mem_tags, List.any_eq_true]
  simp only [decide_eq_true_eq]

namespace Relays

theorem refl (m : Manager) : Relays m m [] :=
  ⟨(List.map_id m.listeners).symm, rfl, fun _ => (List.append_nil _).symm⟩

theorem tags {m m' : Manager} {ns : List Notice} (h : Relays m m' ns) : m'.tags = m.tags := by
  unfold Manager.tags
  rw [h.listeners, List.filterMap_map]
  exact congrArg (List.filterMap · m.listeners) (funext fun l => l.tag?_foldl_hear ns)

theorem trans {a b c : Manager} {ns more : List Notice} (h : Relays a b ns) (h' : Relays b c more) :
    Relays a c (ns ++ more) := by
  refine ⟨?_, ?_, fun tag => ?_⟩
  · rw [h'.listeners, h.listeners, List.map_map]
    refine List.map_congr_left fun l _ => ?_
    rw [Function.comp_apply, List.foldl_append]
  · rw [h'.capacity, h.capacity, List.foldl_append]
  · rw [h'.received, h.received, h.tags, List.flatMap_append, List.append_assoc]

/-- Effects that carry no notice do not count. -/
theorem of_quiet {m m' : Manager} (effects : List Effect) (listeners : m'.listeners = m.listeners)
    (capacity : m'.capacity = m.capacity) (outbox : m'.outbox = m.outbox ++ effects)
    (quiet : ∀ e ∈ effects, ∀ tag, e.noticeTo? tag = none) : Relays m m' [] := by
  refine ⟨by rw [listeners]; exact (List.map_id _).symm, capacity, fun tag => ?_⟩
  have none : effects.filterMap (·.noticeTo? tag) = [] :=
    List.filterMap_eq_nil_iff.mpr fun e he => quiet e he tag
  unfold Manager.received
  rw [outbox, List.filterMap_append, none]
  rfl

theorem of_eq {m m' : Manager} (listeners : m'.listeners = m.listeners) (capacity : m'.capacity = m.capacity)
    (outbox : m'.outbox = m.outbox) : Relays m m' [] :=
  of_quiet [] listeners capacity (by rw [outbox, List.append_nil]) fun _ he => absurd he List.not_mem_nil

theorem emit (m : Manager) {e : Effect} (quiet : ∀ tag, e.noticeTo? tag = none) : Relays m (m.emit e) [] := by
  refine of_quiet [e] rfl rfl rfl fun e' he' => ?_
  rw [List.mem_singleton.mp he']
  exact quiet

/-- A notice reaches a listener once for each time that it is registered. -/
theorem noticeTo?_tell (ls : List Listener) (notice : Notice) (tag : Tag) :
    (ls.filterMap (·.notification? notice)).filterMap (·.noticeTo? tag) =
      List.replicate ((ls.filterMap (·.tag?)).count tag) notice := by
  induction ls with
  | nil => rfl
  | cons l ls ih =>
    cases ht : l.tag? with
    | none =>
      have silent : l.notification? notice = none := by rw [Listener.notification?, ht]; rfl
      rw [List.filterMap_cons, silent, List.filterMap_cons, ht, ih]
    | some t =>
      have told : l.notification? notice = some (.notify t notice) := by rw [Listener.notification?, ht]; rfl
      have heard : (l :: ls).filterMap (·.tag?) = t :: ls.filterMap (·.tag?) := by rw [List.filterMap_cons, ht]
      rw [heard, List.filterMap_cons, told, List.count_cons, List.filterMap_cons, ih]
      by_cases same : t = tag
      · simp [Effect.noticeTo?, same, List.replicate_succ]
      · simp [Effect.noticeTo?, same]

theorem told {m m₁ : Manager} {notice : Notice} (listeners : m₁.listeners = m.listeners)
    (capacity : m₁.capacity = m.capacity.hear notice) (outbox : m₁.outbox = m.outbox) :
    Relays m (m₁.tell notice) [notice] := by
  rw [tell_eq]
  refine ⟨by rw [listeners]; rfl, capacity, fun tag => ?_⟩
  unfold Manager.received
  dsimp only
  rw [outbox, listeners, List.filterMap_append, noticeTo?_tell, List.flatMap_singleton]
  rfl

theorem join (m : Manager) (n : NodeId) : Relays m (m.join n) [.join n] :=
  told rfl rfl rfl

theorem leave (m : Manager) (n : NodeId) : Relays m (m.leave n) (if n = m.id then [] else [.leave n]) := by
  unfold Manager.leave
  split
  next => exact refl m
  next => exact told rfl rfl rfl

theorem updateFree (m : Manager) (n : NodeId) (long : Bool) (free : UInt64) :
    Relays m (m.updateFree n long free) (if m.members.contains n then [.free n long free] else []) := by
  unfold Manager.updateFree
  split
  next => exact told rfl rfl rfl
  next => exact refl m

theorem delta (m : Manager) (origin : NodeId) (c : Counter) :
    Relays m (m.delta origin c) (if m.members.contains origin then [.delta origin c] else []) := by
  unfold Manager.delta
  split
  next => exact told rfl rfl rfl
  next => exact refl m

theorem leaveAll (peers : List NodeId) (m : Manager) (others : ∀ p ∈ peers, p ≠ m.id) :
    Relays m (peers.foldl Manager.leave m) (peers.map .leave) := by
  induction peers generalizing m with
  | nil => exact refl m
  | cons p peers ih =>
    have first := leave m p
    rw [if_neg (others p List.mem_cons_self)] at first
    exact first.trans (ih _ fun q hq => by rw [leave_id]; exact others q (List.mem_cons_of_mem _ hq))

theorem disband (m : Manager) : Relays m m.disband ((m.members.peers m.id).map .leave) :=
  leaveAll _ m fun _ hp => (Roster.mem_peers.mp hp).2

theorem record (m : Manager) (c : Counter) : Relays m (m.record c) [] := by
  rw [record_eq]
  refine of_quiet _ rfl rfl rfl fun e he tag => ?_
  obtain ⟨t, _, rfl⟩ := Option.map_eq_some_iff.mp (Option.mem_toList.mp he)
  rfl

theorem askTransport (m : Manager) {ask : Tag → Effect} (quiet : ∀ t tag, (ask t).noticeTo? tag = none) :
    Relays m (m.askTransport ask).1 [] := by
  unfold Manager.askTransport
  split
  next t _ => exact emit m (quiet t)
  next => exact refl m

theorem route (m : Manager) (work : Work) : Relays m (m.route work).1 [] := by
  obtain ⟨asked, questions, he, _⟩ := route_asks m work
  rw [he]
  refine of_quiet asked rfl rfl rfl fun e hq tag => ?_
  have question := questions e hq
  cases e <;> first | rfl | cases question

section Own

variable {m : Manager} (member : m.members.contains m.id)

include member

theorem announce (long : Bool) (free : UInt64) : Relays m (m.announce long free) [.free m.id long free] := by
  have told := updateFree m m.id long free
  rw [if_pos member] at told
  unfold Manager.announce
  dsimp only
  split
  next => exact told.trans (emit _ fun _ => rfl)
  next => exact told

theorem announceAll (free : Free) :
    Relays m (m.announceAll free) [.free m.id false free.short, .free m.id true free.long] := by
  have short := updateFree m m.id false free.short
  have long := updateFree (m.updateFree m.id false free.short) m.id true free.long
  rw [if_pos member] at short
  rw [updateFree_members, if_pos member] at long
  have both := short.trans long
  unfold Manager.announceAll
  dsimp only
  split
  next => exact (both.trans (emit _ fun _ => rfl)).trans (emit _ fun _ => rfl)
  next => exact both

theorem handOver (free : Free) (mode : Mode) (work : Work) :
    Relays m (m.handOver free mode work) [m.lessOne free work] :=
  (announce member work.longRunning _).trans (emit _ fun _ => rfl)

theorem complete (free : Free) (long success : Bool) :
    Relays m (m.complete free long success) [.free m.id long (free.ofPool long)] := by
  have counted := record m (if success then .workSuccessful else .workFailed)
  have steady := Steady.record m (if success then .workSuccessful else .workFailed)
  have still := member
  rw [← steady.members, ← steady.id] at still
  have announced := announce still long (free.ofPool long)
  rw [steady.id] at announced
  exact counted.trans announced

theorem submit (free : Free) (mode : Mode) (work : Work) :
    Relays m (m.submit free mode work).1 (m.news (.submit free mode work)) := by
  have routed := route m work
  have steady := Steady.route m work
  rw [news]
  unfold Manager.submit
  split
  next heq =>
    have fails : (m.route work).2.toOption ≠ some .execute := by simp [heq, Except.toOption]
    rw [heq] at routed
    rw [if_neg fails]
    exact routed
  next m₁ heq =>
    have stays : (m.route work).2.toOption = some .execute := by rw [heq]; rfl
    rw [heq] at routed steady
    rw [if_pos stays]
    have still := member
    rw [← steady.members, ← steady.id] at still
    have handed := handOver still free mode work
    rw [lessOne, steady.id] at handed
    exact routed.trans handed
  next heq =>
    have leaves : (m.route work).2.toOption ≠ some .execute := by simp [heq, Except.toOption]
    rw [heq] at routed
    rw [if_neg leaves]
    exact routed.trans (emit _ fun _ => rfl)

end Own

/-- Every move that brings no listener tells its news. -/
theorem move {m : Manager} (member : m.members.contains m.id) {x : Move} (h : x.brings? = none) :
    Relays m (m.move x) (m.news x) := by
  cases x with
  | policy p =>
    have unheard : m.setPolicy p = { m with policy := some p } := by
      obtain ⟨tag, rule⟩ := p
      unfold Manager.setPolicy
      cases rule with
      | always => rfl
      | never => rfl
      | waterMark mark => cases h
      | custom listens answer =>
        cases listens with
        | false => rfl
        | true => cases h
    rw [Manager.move, unheard]
    exact of_eq rfl rfl rfl
  | selector s =>
    have unheard : m.setSelector s = { m with selector := some s } := by
      obtain ⟨tag, rule⟩ := s
      unfold Manager.setSelector
      cases rule with
      | firstAvailable => rfl
      | maxFreeWorkers => rfl
      | custom listens choose =>
        cases listens with
        | false => rfl
        | true => cases h
    rw [Manager.move, unheard]
    exact of_eq rfl rfl rfl
  | transport tag listens =>
    cases listens with
    | false => exact of_quiet [.attach tag] rfl rfl rfl (by simp [Effect.noticeTo?])
    | true => cases h
  | listener l => cases h
  | replicate on => exact of_eq rfl rfl rfl
  | count c => exact record m c
  | hear notice =>
    cases notice with
    | join n => exact join m n
    | leave n => exact leave m n
    | free n long count => exact updateFree m n long count
    | delta origin c => exact delta m origin c
  | submit free mode work => exact submit member free mode work
  | submitHere free mode work => exact handOver member free mode work
  | complete free long success => exact complete member free long success
  | settle mode outcome => exact record m _
  | connect => exact askTransport m fun _ _ => rfl
  | announceAll free => exact announceAll member free
  | disconnect => exact askTransport m fun _ _ => rfl
  | disband => exact disband m
  | ping n => exact askTransport m fun _ _ => rfl

end Relays

namespace Enrols

theorem noticeTo?_catchUp (l : Listener) (ns : List Notice) (tag : Tag) :
    (ns.filterMap (l.notification? ·)).filterMap (·.noticeTo? tag) = if l.tag? = some tag then ns else [] := by
  rw [List.filterMap_filterMap]
  split
  next ht =>
    refine (congrArg (List.filterMap · ns) (funext fun n => ?_)).trans List.filterMap_some
    rw [Listener.notification?, ht]
    simp [Effect.noticeTo?]
  next ht =>
    refine List.filterMap_eq_nil_iff.mpr fun n _ => ?_
    rw [Listener.notification?]
    cases hl : l.tag? with
    | none => rfl
    | some t =>
      have other : t ≠ tag := fun e => ht (hl.trans (congrArg some e))
      simp [Effect.noticeTo?, other]

theorem addListener (m : Manager) (l : Listener) : Enrols m (m.addListener l) l := by
  rw [addListener_eq]
  by_cases known : m.listeners.any (·.tag? = l.tag?)
  · rw [if_pos known]
    refine ⟨by rw [if_pos known], rfl, fun tag => ?_⟩
    rw [if_neg, List.append_nil]
    rintro ⟨ht, fresh⟩
    rw [any_tag ht, decide_eq_true_eq] at known
    exact fresh known
  · rw [if_neg known]
    refine ⟨by rw [if_neg known], rfl, fun tag => ?_⟩
    rw [Manager.received, List.filterMap_append, noticeTo?_catchUp]
    by_cases ht : l.tag? = some tag
    · rw [any_tag ht, decide_eq_true_eq] at known
      rw [if_pos ht, if_pos ⟨ht, known⟩]
      rfl
    · rw [if_neg ht, if_neg fun h => ht h.1]
      rfl

/-- Whatever tells no notice may come before and after. -/
theorem between {m m₁ m₂ m' : Manager} {l : Listener} (h : Enrols m₁ m₂ l) (before : Relays m m₁ [])
    (after : Relays m₂ m' []) : Enrols m m' l := by
  have same : m₁.listeners = m.listeners := before.listeners.trans (List.map_id _)
  have still : m₁.capacity = m.capacity := before.capacity
  refine ⟨?_, after.capacity.trans (h.capacity.trans still), fun tag => ?_⟩
  · rw [after.listeners, ← same, ← still]
    exact (List.map_id _).trans h.listeners
  · rw [after.received, h.received, before.received, before.tags, still]
    simp

/-- A move that brings a listener tells nothing to the others. -/
theorem move (m : Manager) {x : Move} {l : Listener} (h : x.brings? = some l) :
    Enrols m (m.move x) l ∧ m.news x = [] := by
  have aside {m₁ m' : Manager} (policy : Option Policy) (selector : Option Selector) (transport : Option Tag)
      (e : m' = { m₁ with policy := policy, selector := selector, transport := transport }) : Relays m₁ m' [] := by
    rw [e]
    exact .of_eq rfl rfl rfl
  cases x with
  | policy p =>
    refine ⟨?_, rfl⟩
    obtain ⟨tag, rule⟩ := p
    cases rule with
    | always => cases h
    | never => cases h
    | waterMark mark =>
      cases h
      exact (addListener m _).between (.refl m) (aside _ _ _ rfl)
    | custom listens answer =>
      cases listens with
      | false => cases h
      | true =>
        cases h
        exact (addListener m _).between (.refl m) (aside _ _ _ rfl)
  | selector s =>
    refine ⟨?_, rfl⟩
    obtain ⟨tag, rule⟩ := s
    cases rule with
    | firstAvailable => cases h
    | maxFreeWorkers => cases h
    | custom listens choose =>
      cases listens with
      | false => cases h
      | true =>
        cases h
        exact (addListener m _).between (.refl m) (aside _ _ _ rfl)
  | transport tag listens =>
    refine ⟨?_, rfl⟩
    cases listens with
    | false => cases h
    | true =>
      cases h
      let attached := { m.emit (.attach tag) with statistics := { m.statistics with transport := some tag } }
      have quiet : Relays m attached [] := .of_quiet [.attach tag] rfl rfl rfl (by simp [Effect.noticeTo?])
      exact (addListener attached _).between quiet (aside _ _ _ rfl)
  | listener l' =>
    cases h
    exact ⟨addListener m l, rfl⟩
  | _ => cases h

end Enrols

end Manager

end Workshare
