import Workshare.Proofs.Manager.Listeners

namespace Workshare

/-- Everything that can happen to a manager. A move is made from outside, or it is how an open submission goes on;
free workers are read off the executor when it is made. -/
inductive Move
  | policy (p : Policy)
  | selector (s : Selector)
  | transport (tag : Tag) (listens : Bool)
  | listener (l : Listener)
  | replicate (on : Bool)
  | count (c : Counter)
  | hear (notice : Notice)
  | submit (free : Free) (mode : Mode) (work : Work)
  | submitHere (free : Free) (mode : Mode) (work : Work)
  | complete (free : Free) (long success : Bool)
  | settle (mode : Mode) (outcome : Outcome)
  | connect
  | announceAll (free : Free)
  | disconnect
  | disband
  | ping (node : NodeId)

/-- Moves that neither tell of other nodes nor change where the own tally is told. -/
def Move.isPlain : Move → Bool
  | .transport _ _ => false
  | .replicate _ => false
  | .hear _ => false
  | .disband => false
  | _ => true

/-- The counter that a move counts for its own node. -/
def Move.records : Move → Option Counter
  | .count c => some c
  | .complete _ _ success => some (if success then .workSuccessful else .workFailed)
  | .settle mode outcome => some (mode.admission outcome)
  | _ => none

def Move.isSubmission : Move → Bool
  | .submit _ _ _ => true
  | .submitHere _ _ _ => true
  | _ => false

/-- A move by which a node may tell of its own free workers. -/
def Move.publishes : Move → Bool
  | .submit _ _ _ => true
  | .submitHere _ _ _ => true
  | .complete _ _ _ => true
  | .announceAll _ => true
  | _ => false

namespace Effect

def isDelta : Effect → Bool
  | .delta _ _ _ => true
  | _ => false

def isQuestion : Effect → Bool
  | .askPolicy _ _ => true
  | .askSelector _ _ => true
  | _ => false

def isHandOver : Effect → Bool
  | .dispatch _ _ _ _ => true
  | .execute _ _ => true
  | _ => false

end Effect

def Roster.hear (r : Roster) : Notice → Roster
  | .join n => r.insert n
  | .leave n => r.erase n
  | .free _ _ _ => r
  | .delta _ _ => r

def CapacityTable.hear (t : CapacityTable) : Notice → CapacityTable
  | .join n => t.register n
  | .leave n => t.remove n
  | .free n long count => t.updatePool n long count
  | .delta _ _ => t

namespace Manager

def move (m : Manager) : Move → Manager
  | .policy p => m.setPolicy p
  | .selector s => m.setSelector s
  | .transport tag listens => m.setTransport tag listens
  | .listener l => m.addListener l
  | .replicate on => { m with statistics := { m.statistics with enabled := on } }
  | .count c => m.record c
  | .hear notice => m.hear notice
  | .submit free mode work => (m.submit free mode work).1
  | .submitHere free mode work => m.handOver free mode work
  | .complete free long success => m.complete free long success
  | .settle mode outcome => m.settle mode outcome
  | .connect => m.connect.1
  | .announceAll free => m.announceAll free
  | .disconnect => m.disconnect
  | .disband => m.disband
  | .ping n => (m.ping n).1

def run (m : Manager) (moves : List Move) : Manager :=
  moves.foldl move m

theorem run_append (m : Manager) (xs ys : List Move) : m.run (xs ++ ys) = (m.run xs).run ys :=
  List.foldl_append

@[simp] theorem run_nil (m : Manager) : m.run [] = m := rfl

@[simp] theorem run_concat (m : Manager) (moves : List Move) (x : Move) :
    m.run (moves ++ [x]) = (m.run moves).move x := by
  simp [run]

@[simp] theorem tell_id (m : Manager) (notice : Notice) : (m.tell notice).id = m.id := by
  rw [tell_eq]

@[simp] theorem updateFree_id (m : Manager) (n : NodeId) (long : Bool) (free : UInt64) :
    (m.updateFree n long free).id = m.id := by
  unfold updateFree
  split
  next => rw [tell_id]
  next => rfl

@[simp] theorem leave_id (m : Manager) (n : NodeId) : (m.leave n).id = m.id := by
  unfold leave
  split
  next => rfl
  next => rw [tell_id]

/-- A notice is dropped, or the roster and the capacity table go by it and then it is told. -/
theorem hear_cases (m : Manager) (notice : Notice) :
    m.hear notice = m ∨ notice ≠ .leave m.id ∧
      m.hear notice =
        { m with members := m.members.hear notice, capacity := m.capacity.hear notice }.tell notice := by
  cases notice with
  | join n => exact .inr ⟨nofun, rfl⟩
  | leave n =>
    show m.leave n = m ∨ _ ∧ m.leave n = _
    unfold leave
    split
    next => exact .inl rfl
    next other => exact .inr ⟨fun own => other (Notice.leave.inj own), rfl⟩
  | free n long count =>
    show m.updateFree n long count = m ∨ _ ∧ m.updateFree n long count = _
    unfold updateFree
    split
    next => exact .inr ⟨nofun, rfl⟩
    next => exact .inl rfl
  | delta origin c =>
    show m.delta origin c = m ∨ _ ∧ m.delta origin c = _
    unfold delta
    split
    next => exact .inr ⟨nofun, rfl⟩
    next => exact .inl rfl

/-- A step of the own tally is counted, and told of while the node replicates. -/
theorem record_eq (m : Manager) (c : Counter) :
    m.record c =
      { m with
        statistics := m.statistics.record c
        outbox := m.outbox ++ (m.statistics.replicatesTo.map (.delta · m.id c)).toList } := by
  have told : (m.statistics.record c).replicatesTo = m.statistics.replicatesTo := rfl
  unfold record
  dsimp only
  rw [told]
  cases m.statistics.replicatesTo with
  | none => simp
  | some tag => rfl

end Manager

/-- A small change of a manager. -/
inductive Change
  | emit (e : Effect)
  | record (c : Counter)
  | publish (long : Bool) (free : UInt64)
  | hear (notice : Notice)
  | listener (l : Listener)
  | policy (p : Policy)
  | selector (s : Selector)
  | transport (tag : Tag)
  /-- The statistics get the transport. -/
  | channel (tag : Tag)
  | replicate (on : Bool)

def Manager.change (m : Manager) : Change → Manager
  | .emit e => m.emit e
  | .record c => m.record c
  | .publish long free => m.updateFree m.id long free
  | .hear notice => m.hear notice
  | .listener l => m.addListener l
  | .policy p => { m with policy := some p }
  | .selector s => { m with selector := some s }
  | .transport tag => { m with transport := some tag }
  | .channel tag => { m with statistics := { m.statistics with transport := some tag } }
  | .replicate on => { m with statistics := { m.statistics with enabled := on } }

/-- The small changes that a move is made of. -/
inductive Move.Makes : Move → Change → Prop
  | heed {p : Policy} {l : Listener} : Makes (.policy p) (.listener l)
  | policy {p : Policy} : Makes (.policy p) (.policy p)
  | watch {s : Selector} {l : Listener} : Makes (.selector s) (.listener l)
  | selector {s : Selector} : Makes (.selector s) (.selector s)
  | attach {tag : Tag} {listens : Bool} : Makes (.transport tag listens) (.emit (.attach tag))
  | channel {tag : Tag} {listens : Bool} : Makes (.transport tag listens) (.channel tag)
  | overhear {tag : Tag} {listens : Bool} : Makes (.transport tag listens) (.listener (.external tag))
  | transport {tag : Tag} {listens : Bool} : Makes (.transport tag listens) (.transport tag)
  | listener {l : Listener} : Makes (.listener l) (.listener l)
  | replicate {on : Bool} : Makes (.replicate on) (.replicate on)
  | hear {notice : Notice} : Makes (.hear notice) (.hear notice)
  | leave {n : NodeId} : Makes .disband (.hear (.leave n))
  | record {x : Move} {c : Counter} : x.records = some c → Makes x (.record c)
  | publish {x : Move} {long : Bool} {free : UInt64} : x.publishes → Makes x (.publish long free)
  | announce {x : Move} {tag : Tag} {n : NodeId} {long : Bool} {free : UInt64} : x.publishes →
      Makes x (.emit (.announce tag n long free))
  | ask {free : Free} {mode : Mode} {work : Work} {e : Effect} : e.isQuestion → Makes (.submit free mode work) (.emit e)
  | handOver {x : Move} {e : Effect} : x.isSubmission → e.isHandOver → Makes x (.emit e)
  | connect {tag : Tag} : Makes .connect (.emit (.connect tag))
  | disconnect {tag : Tag} : Makes .disconnect (.emit (.disconnect tag))
  | ping {tag : Tag} {n : NodeId} : Makes (.ping n) (.emit (.ping tag n))

def Change.isPlain : Change → Bool
  | .emit e => !e.isDelta
  | .hear _ => false
  | .transport _ => false
  | .channel _ => false
  | .replicate _ => false
  | _ => true

theorem Move.Makes.isPlain {x : Move} {c : Change} (h : x.Makes c) (hx : x.isPlain) : c.isPlain := by
  cases h with
  | @ask free mode work e asked => cases e <;> first | rfl | cases asked
  | @handOver x e submitted handed => cases e <;> first | rfl | cases handed
  | attach => cases hx
  | channel => cases hx
  | transport => cases hx
  | replicate => cases hx
  | hear => cases hx
  | leave => cases hx
  | _ => rfl

/-- A relation between a manager and what becomes of it that small changes of a kind keep. -/
structure Persists (kind : Change → Prop) (R : Manager → Manager → Prop) : Prop where
  refl (m : Manager) : R m m
  trans {a b c : Manager} : R a b → R b c → R a c
  change (m : Manager) {x : Change} : kind x → R m (m.change x)

namespace Persists

variable {kind : Change → Prop} {R : Manager → Manager → Prop}

theorem announce (h : Persists kind R) (m : Manager) {long : Bool} {free : UInt64} (published : kind (.publish long free))
    (announced : ∀ tag n, kind (.emit (.announce tag n long free))) : R m (m.announce long free) := by
  have entered : R m (m.updateFree m.id long free) := h.change m published
  unfold Manager.announce
  dsimp only
  split
  next => exact h.trans entered (h.change _ (announced _ _))
  next => exact entered

theorem announceAll (h : Persists kind R) (m : Manager) (free : Free)
    (published : ∀ long free, kind (.publish long free))
    (announced : ∀ tag n long free, kind (.emit (.announce tag n long free))) : R m (m.announceAll free) := by
  have both : R m ((m.updateFree m.id false free.short).updateFree m.id true free.long) := by
    have first : R m (m.updateFree m.id false free.short) := h.change m (published false free.short)
    have second := h.change (m.updateFree m.id false free.short) (published true free.long)
    rw [Manager.change, Manager.updateFree_id] at second
    exact h.trans first second
  unfold Manager.announceAll
  dsimp only
  split
  next => exact h.trans both (h.trans (h.change _ (announced _ _ _ _)) (h.change _ (announced _ _ _ _)))
  next => exact both

theorem askTransport (h : Persists kind R) (m : Manager) {ask : Tag → Effect} (asked : ∀ tag, kind (.emit (ask tag))) :
    R m (m.askTransport ask).1 := by
  unfold Manager.askTransport
  split
  next => exact h.change m (asked _)
  next => exact h.refl m

theorem route (h : Persists kind R) (m : Manager) (work : Work) (asked : ∀ e, e.isQuestion → kind (.emit e)) :
    R m (m.route work).1 := by
  unfold Manager.route
  split
  next => exact h.refl m
  next =>
    split
    next policy selector transport _ _ _ =>
      have first : R m (m.emit (.askPolicy policy.tag work)) := h.change m (asked _ rfl)
      have second := h.trans first (h.change _ (asked (.askSelector selector.tag work) rfl))
      dsimp only
      split
      next => exact first
      next => exact first
      next =>
        split
        next => exact second
        next => exact second
        next =>
          split
          next => exact second
          next => exact second
    next => exact h.refl m

theorem disband (h : Persists kind R) (m : Manager) (left : ∀ n, kind (.hear (.leave n))) : R m m.disband := by
  unfold Manager.disband
  generalize m.members.peers m.id = peers
  induction peers generalizing m with
  | nil => exact h.refl m
  | cons n peers ih => exact h.trans (h.change m (left n)) (ih _)

/-- What the small changes of a move keep the move keeps. -/
theorem move (h : Persists kind R) (m : Manager) {x : Move} (makes : ∀ {c}, x.Makes c → kind c) : R m (m.move x) := by
  have one (m : Manager) {c : Change} (made : x.Makes c) : R m (m.change c) := h.change m (makes made)
  have handOver (m : Manager) (free : Free) (mode : Mode) (work : Work) (submitted : x.isSubmission)
      (published : x.publishes) : R m (m.handOver free mode work) :=
    h.trans (h.announce m (makes (.publish published)) fun _ _ => makes (.announce published))
      (one _ (.handOver submitted rfl))
  cases x with
  | policy p =>
    show R m (m.setPolicy p)
    unfold Manager.setPolicy
    dsimp only
    refine h.trans ?_ (one _ .policy)
    split
    next => exact one m .heed
    next =>
      split
      next => exact one m .heed
      next => exact h.refl m
  | selector s =>
    show R m (m.setSelector s)
    unfold Manager.setSelector
    dsimp only
    refine h.trans ?_ (one _ .selector)
    split
    next => exact one m .watch
    next => exact h.refl m
  | transport tag listens =>
    have attached := h.trans (one m .attach) (one _ .channel)
    show R m (m.setTransport tag listens)
    unfold Manager.setTransport
    dsimp only
    refine h.trans (h.trans attached ?_) (one _ .transport)
    split
    next => exact one _ .overhear
    next => exact h.refl _
  | listener l => exact one m .listener
  | replicate on => exact one m .replicate
  | count c => exact one m (.record rfl)
  | hear notice => exact one m .hear
  | submit free mode work =>
    have routed := h.route m work fun e asks => makes (.ask asks)
    show R m (m.submit free mode work).1
    unfold Manager.submit
    split
    next heq => rw [heq] at routed; exact routed
    next heq => rw [heq] at routed; exact h.trans routed (handOver _ free mode work rfl rfl)
    next heq => rw [heq] at routed; exact h.trans routed (one _ (.handOver rfl rfl))
  | submitHere free mode work => exact handOver m free mode work rfl rfl
  | complete free long success =>
    exact h.trans (one m (.record rfl)) (h.announce _ (makes (.publish rfl)) fun _ _ => makes (.announce rfl))
  | settle mode outcome => exact one m (.record rfl)
  | connect => exact h.askTransport m fun _ => makes .connect
  | announceAll free =>
    exact h.announceAll m free (fun _ _ => makes (.publish rfl)) fun _ _ _ _ => makes (.announce rfl)
  | disconnect => exact h.askTransport m fun _ => makes .disconnect
  | disband => exact h.disband m fun _ => makes .leave
  | ping n => exact h.askTransport m fun _ => makes .ping

end Persists

end Workshare
