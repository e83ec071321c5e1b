import Workshare.Proofs.Cluster.Hosts
import Workshare.Proofs.Manager.Balance

namespace Workshare

/-- What a notice says of the free workers of a node. -/
def Notice.freeOf? (n : NodeId) : Notice → Option (Bool × UInt64)
  | .free p long count => if p = n then some (long, count) else none
  | .join _ => none
  | .leave _ => none
  | .delta _ _ => none

/-- The free workers of a node after something has been said of them, or nothing. -/
def Free.told (f : Free) (said : Option (Bool × UInt64)) : Free :=
  said.elim f fun s => f.setPool s.1 s.2

theorem Notice.freeOf?_free (n p : NodeId) (long : Bool) (count : UInt64) :
    (Notice.free p long count).freeOf? n = if p = n then some (long, count) else none :=
  rfl

theorem WaterMark.hear_eq (w : WaterMark) (notice : Notice) :
    w.hear notice = { w with free := w.free.told (notice.freeOf? w.node) } := by
  cases notice with
  | free p long count =>
    rw [Notice.freeOf?_free]
    unfold WaterMark.hear
    dsimp only
    split
    next => rfl
    next => rfl
  | join | leave | delta => rfl

namespace Manager

/-- What `m` knows about its own node, `m'` knows too, but for what has been said of its free workers. -/
structure Believes (said : Option (Bool × UInt64)) (m m' : Manager) : Prop where
  id : m'.id = m.id
  member : m.members.contains m.id → m'.members.contains m.id
  tally : m'.statistics.own = m.statistics.own
  entry : m'.capacity.get? m.id = (m.capacity.get? m.id).map (·.told said)
  marks : ∀ tag, ∃ f : WaterMark → WaterMark, m'.waterMark? tag = (m.waterMark? tag).map f ∧
    ∀ w, w.node = m.id → f w = { w with free := w.free.told said }

theorem waterMark?_tell (m : Manager) (notice : Notice) (tag : Tag) :
    (m.tell notice).waterMark? tag = (m.waterMark? tag).map (·.hear notice) := by
  unfold waterMark?
  rw [tell_listeners, List.findSome?_map]
  induction m.listeners with
  | nil => rfl
  | cons l ls ih =>
    rw [List.findSome?_cons, List.findSome?_cons]
    cases l with
    | statistics => exact ih
    | external t => exact ih
    | waterMark t mark =>
      by_cases same : t = tag
      · simp [Listener.hear, same]
      · simpa [Listener.hear, same] using ih

namespace Believes

variable {said : Option (Bool × UInt64)} {m m' m'' : Manager}

theorem of_eq (id : m'.id = m.id) (members : m'.members = m.members) (statistics : m'.statistics = m.statistics)
    (capacity : m'.capacity = m.capacity) (listeners : m'.listeners = m.listeners) : Believes none m m' := by
  refine ⟨id, fun h => by rw [members]; exact h, by rw [statistics], ?_, fun tag => ⟨fun w => w, ?_, fun w _ => rfl⟩⟩
  · rw [capacity]
    exact Option.map_id'.symm
  · unfold waterMark?
    rw [listeners, Option.map_id']

theorem trans (h : Believes said m m') (h' : Believes none m' m'') : Believes said m m'' := by
  have entry := h'.entry
  rw [h.id, h.entry, Option.map_map] at entry
  refine ⟨h'.id.trans h.id, fun own => ?_, h'.tally.trans h.tally, entry, fun tag => ?_⟩
  · have still := h'.member (by rw [h.id]; exact h.member own)
    rw [h.id] at still
    exact still
  obtain ⟨f, marks, own⟩ := h.marks tag
  obtain ⟨g, marks', own'⟩ := h'.marks tag
  refine ⟨fun w => g (f w), ?_, fun w hw => ?_⟩
  · rw [marks', marks, Option.map_map]
    rfl
  · have node : (f w).node = m'.id := by
      rw [own w hw, h.id]
      exact hw
    dsimp only
    rw [own' (f w) node, own w hw]
    rfl

theorem tell (id : m'.id = m.id) (tally : m'.statistics.own = m.statistics.own) (listeners : m'.listeners = m.listeners)
    (member : m.members.contains m.id → m'.members.contains m.id) (notice : Notice)
    (entry : m'.capacity.get? m.id = (m.capacity.get? m.id).map (·.told (notice.freeOf? m.id))) :
    Believes (notice.freeOf? m.id) m (m'.tell notice) := by
  refine ⟨?_, ?_, ?_, ?_, fun tag => ⟨fun w => w.hear notice, ?_, fun w hw => ?_⟩⟩
  · rw [tell_id]
    exact id
  · rw [tell_members]
    exact member
  · rw [own_tell]
    exact tally
  · rw [tell_capacity]
    exact entry
  · have same : m'.waterMark? tag = m.waterMark? tag := by
      unfold waterMark?
      rw [listeners]
    rw [waterMark?_tell, same]
  · dsimp only
    rw [w.hear_eq, hw]

/-- The one notice that tells a node something of itself is its own free count; whoever is told to join, to leave or to
count keeps what it knows of itself. -/
theorem hear (sound : Sound m) (notice : Notice) : Believes (notice.freeOf? m.id) m (m.hear notice) := by
  have same : ∀ o : Option Free, o = o.map (·.told none) := fun _ => Option.map_id'.symm
  cases notice with
  | join n =>
    refine tell (by rfl) (by rfl) (by rfl) (fun own => ?_) (.join n) ?_
    · rw [Roster.contains_insert, own, Bool.or_true]
    dsimp only
    rw [CapacityTable.get?_register]
    split
    next self =>
      obtain ⟨f, there⟩ := sound.own_entry
      rw [← self, there]
      rfl
    next => exact same _
  | leave n =>
    show Believes none m (m.leave n)
    unfold Manager.leave
    split
    next => exact of_eq rfl rfl rfl rfl rfl
    next other =>
      refine tell (by rfl) (by rfl) (by rfl) (fun own => ?_) (.leave n) ?_
      · rw [Roster.contains_erase, own, decide_eq_false (Ne.symm other)]
        rfl
      dsimp only
      rw [CapacityTable.get?_remove, if_neg (Ne.symm other)]
      exact same _
  | free n long count =>
    show Believes _ m (m.updateFree n long count)
    unfold Manager.updateFree
    split
    next =>
      refine tell (by rfl) (by rfl) (by rfl) (fun own => ?_) (.free n long count) ?_
      · exact own
      dsimp only
      rw [CapacityTable.get?_updatePool, Notice.freeOf?_free]
      split
      next self =>
        obtain ⟨f, there⟩ := sound.own_entry
        rw [if_pos self.symm, ← self, there]
        rfl
      next other =>
        rw [if_neg (Ne.symm other)]
        exact same _
    next absent =>
      -- the node itself is always a member, so that only updates of others are turned down
      have other : n ≠ m.id := fun self => absent (self ▸ sound.member)
      rw [Notice.freeOf?_free, if_neg other]
      exact of_eq rfl rfl rfl rfl rfl
  | delta n c =>
    show Believes none m (m.delta n c)
    unfold Manager.delta
    split
    next => exact tell rfl rfl rfl (fun own => own) (.delta n c) (same _)
    next => exact of_eq rfl rfl rfl rfl rfl

theorem drain (h : Believes said m m') : Believes said m m'.drain.2 :=
  h.trans (of_eq rfl rfl rfl rfl rfl)

theorem attend (sound : Sound m) (changes : List MembershipChange) : Believes none m (m.attend changes) := by
  induction changes generalizing m with
  | nil => exact of_eq rfl rfl rfl rfl rfl
  | cons change changes ih =>
    have heard : Believes none m (m.hear change.notice).drain.2 := by
      have silent : change.notice.freeOf? m.id = none := by cases change <;> rfl
      rw [← silent]
      exact (hear sound change.notice).drain
    exact heard.trans (ih (sound.attend [change]))

/-- What a water mark for the own node answers afterwards. -/
theorem asksPolicy (h : Believes none m m') {p : Policy} {mark : WaterMark} (rule : p.rule = .waterMark mark)
    (own : ((m.waterMark? p.tag).getD mark).node = m.id) (work : Work) :
    m'.asksPolicy p work = m.asksPolicy p work := by
  obtain ⟨f, marks, same⟩ := h.marks p.tag
  unfold Manager.asksPolicy
  rw [rule]
  dsimp only
  rw [marks]
  cases found : m.waterMark? p.tag with
  | none => rfl
  | some w =>
    rw [found] at own
    show Except.ok ((f w).distributes work) = .ok (w.distributes work)
    rw [same w own]
    rfl

end Believes

end Manager

/-- What a message tells a node of its own free workers, if it can be read and is about them. -/
def freeTold? (n : NodeId) (op : UInt16) (body : List UInt8) : Option (Bool × UInt64) :=
  (Request.decode .string op body).toOption.bind fun r => r.notice?.bind (·.freeOf? n)

def Unsubmitting (op : UInt16) (body : List UInt8) : Prop :=
  ∀ r, Request.decode .string op body = .ok r → r.submission? = none

theorem freeTold?_ok {n : NodeId} {op : UInt16} {body : List UInt8} {r : Request String}
    (read : Request.decode .string op body = .ok r) : freeTold? n op body = r.notice?.bind (·.freeOf? n) := by
  unfold freeTold?
  rw [read]
  rfl

namespace Cluster

variable {c c' : Cluster} {n : NodeId} {m : Manager} {Q : Executor → Prop}

theorem Informed.believes {x : Tiding String} (informed : c.Informed n x c') (hm : c.manager? n = some m) :
    ∃ m', c'.manager? n = some m' ∧ m.Believes none m' := by
  obtain ⟨h, host, attached⟩ := host_of_manager hm
  cases informed with
  | absent none => cases none.symm.trans host
  | told there attached' agree learnt byView =>
    rename_i r
    cases there.symm.trans host
    cases attached'.symm.trans attached
    have now : (c.learnt n h m byView r).manager? n = some (m.attend r.2) := by
      unfold manager?
      rw [host_learnt]
      rfl
    exact ⟨_, now, .attend agree.sound r.2⟩

theorem answerNow_believes (agrees : c.Agrees Q) (hm : c.manager? n = some m) (r : Request String) :
    ∃ m', (c.answerNow n r).1.manager? n = some m' ∧ m.Believes (r.notice?.bind (·.freeOf? n)) m' := by
  obtain ⟨h, host, attached⟩ := host_of_manager hm
  have own : m.id = n := by
    obtain ⟨_, m', attached', agree⟩ := agrees n h host
    cases attached.symm.trans attached'
    exact agree.id
  have others : r ≠ .ping → (∀ p a, r ≠ .join p a) → (∀ p, r ≠ .leave p) →
      ∃ m', (c.answerNow n r).1.manager? n = some m' ∧ m.Believes (r.notice?.bind (·.freeOf? n)) m' := by
    intro awake stays goes
    obtain ⟨reply, answered⟩ := answerNow_manage (c := c) n awake stays goes
    rw [answered, manage_fst, manager?_tell hm]
    refine ⟨_, rfl, .drain ?_⟩
    cases r.notice? with
    | none => exact .of_eq rfl rfl rfl rfl rfl
    | some notice =>
      show m.Believes (notice.freeOf? n) (m.hear notice)
      rw [← own]
      exact .hear (agrees.sound hm) notice
  cases r with
  | join p a => exact (agrees.addMember n p a).believes hm
  | leave p => exact (agrees.removeMember n p).believes hm
  | ping => exact ⟨m, hm, .of_eq rfl rfl rfl rfl rfl⟩
  | _ => exact others (by simp) (by simp) (by simp)

theorem serve_believes (agrees : c.Agrees Q) (hm : c.manager? n = some m) (t : Ticket) {op : UInt16} {body : List UInt8}
    (plain : Unsubmitting op body) :
    ∃ m', (c.serve t n op body).1.manager? n = some m' ∧ m.Believes (freeTold? n op body) m' := by
  unfold serve
  cases read : Request.decode .string op body with
  | error e =>
    have nothing : freeTold? n op body = none := by
      unfold freeTold?
      rw [read]
      rfl
    rw [nothing]
    exact ⟨m, hm, .of_eq rfl rfl rfl rfl rfl⟩
  | ok r =>
    dsimp only
    rw [plain r read, freeTold?_ok read]
    exact answerNow_believes agrees hm r

/-- What its messages leave a node of what it knows about itself, in whatever state they find it. It stays a member,
and its own tally is as before. Its own entry and the answers of water marks for itself are as before unless the message
tells the node its own free workers; that it believes, and changes just this count. -/
theorem serve_keeps_self {hosts : List (NodeId × Host)} (new : ∀ e ∈ hosts, e.2.New e.1) (course : List Occurrence)
    {n : NodeId} {h : Host} (host : (course.foldl undergo (start hosts)).host? n = some h) (t : Ticket) {op : UInt16}
    {body : List UInt8} (plain : Unsubmitting op body) :
    ∃ m m' f, h.manager = some m ∧
      ((course.foldl undergo (start hosts)).serve t n op body).1.manager? n = some m' ∧
      m'.members.contains n ∧ m'.statistics.own = m.statistics.own ∧
      m.capacity.get? n = some f ∧ m'.capacity.get? n = some (f.told (freeTold? n op body)) ∧
      (∀ tag w, m.waterMark? tag = some w → w.node = n →
        m'.waterMark? tag = some { w with free := w.free.told (freeTold? n op body) }) ∧
      (freeTold? n op body = none → ∀ p mark, p.rule = .waterMark mark →
        ((m.waterMark? p.tag).getD mark).node = n → ∀ work, m'.asksPolicy p work = m.asksPolicy p work) := by
  have started : (start hosts).Agrees fun _ => True :=
    fun n h hn => ⟨trivial, (new (n, h) (hosts_start hn)).agrees⟩
  have agrees := started.course (fun _ _ _ => trivial) course fun _ _ _ _ _ _ => trivial
  obtain ⟨_, m, attached, agree⟩ := agrees n h host
  have hm : (course.foldl undergo (start hosts)).manager? n = some m := by
    unfold manager?
    rw [host]
    exact attached
  obtain ⟨m', served, believed⟩ := serve_believes agrees hm t plain
  obtain ⟨f, entered⟩ := Option.isSome_iff_exists.mp ((agree.sound.entered m.id).trans agree.sound.member)
  obtain rfl := agree.id
  have there : m.capacity.get? m.id = some f := entered
  refine ⟨m, m', f, attached, served, believed.member agree.sound.member, believed.tally, there, ?_, ?_, ?_⟩
  · rw [believed.entry, there]
    rfl
  · intro tag w found own
    obtain ⟨g, marks, revised⟩ := believed.marks tag
    rw [marks, found, ← revised w own]
    rfl
  · intro nothing p mark rule own work
    rw [nothing] at believed
    exact believed.asksPolicy rule own work

/-- Works leave a node once two of its workers or fewer are free. -/
def watch (n : NodeId) : Policy :=
  ⟨⟨"policy", 1⟩, .waterMark (.start n 2)⟩

def watchful (n : NodeId) : Host :=
  { vacant n with
    manager := some
      ((Manager.start n .default ⟨2, 2⟩).run [.transport ⟨"network", 0⟩ false, .policy (watch n)]).drain.2 }

theorem watchful_new (n : NodeId) : (watchful n).New n := by
  refine ⟨rfl, .default, ⟨2, 2⟩, [.transport ⟨"network", 0⟩ false, .policy (watch n)], ?_, rfl⟩
  intro x hx
  rcases List.mem_cons.mp hx with rfl | hx
  · rfl
  · rw [List.mem_singleton.mp hx]
    rfl

def watching : Cluster :=
  [starting ⟨"a"⟩].foldl undergo (start [(⟨"a"⟩, watchful ⟨"a"⟩)])

theorem serve_keeps_self_leave :
    ∃ m m', watching.manager? ⟨"a"⟩ = some m ∧
      (watching.serve 5 ⟨"a"⟩ (Request.leave ⟨"a"⟩ : Request String).operation.id
        ((Request.leave ⟨"a"⟩).body .string)).1.manager? ⟨"a"⟩ = some m' ∧
      m'.members.contains ⟨"a"⟩ ∧ m'.capacity.get? ⟨"a"⟩ = m.capacity.get? ⟨"a"⟩ := by
  have new : ∀ e ∈ [((⟨"a"⟩ : NodeId), watchful ⟨"a"⟩)], e.2.New e.1 := by
    intro e he
    rw [List.mem_singleton.mp he]
    exact watchful_new ⟨"a"⟩
  obtain ⟨h, host⟩ : ∃ h, watching.host? ⟨"a"⟩ = some h := ⟨_, rfl⟩
  have plain : Unsubmitting (Request.leave ⟨"a"⟩ : Request String).operation.id
      ((Request.leave ⟨"a"⟩).body .string) := by
    intro r hr
    cases hr
    rfl
  obtain ⟨m, m', f, attached, served, member, _, there, kept, _⟩ :=
    serve_keeps_self new [starting ⟨"a"⟩] host 5 plain
  refine ⟨m, m', ?_, served, member, ?_⟩
  · unfold manager?
    rw [host]
    exact attached
  · rw [there, kept]
    rfl

/-- What node `a` has entered for itself, and whether its policy lets a short-running work go. -/
def selfView (c : Cluster) : Option (Option Free × Option Bool) :=
  (c.manager? ⟨"a"⟩).map fun m =>
    let work : Work := ⟨⟨"w"⟩, "log", .null, true, false⟩
    (m.capacity.get? ⟨"a"⟩, (m.asksPolicy (watch ⟨"a"⟩) work).toOption)

/-- A node believes a message about its own free workers. -/
theorem self_overwritten :
    selfView watching = some (some ⟨2, 2⟩, some true) ∧
      selfView (watching.serve 5 ⟨"a"⟩ (Request.updateShortRunningFree ⟨"a"⟩ 7 : Request String).operation.id
        ((Request.updateShortRunningFree ⟨"a"⟩ 7).body .string)).1 = some (some ⟨7, 2⟩, some false) := by
  decide +kernel

end Cluster

end Workshare
