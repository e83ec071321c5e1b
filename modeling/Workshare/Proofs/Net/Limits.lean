import Workshare.Proofs.Cluster.Spares
import Workshare.Proofs.Net.Replies
import Workshare.Proofs.Wire.Faults
import Workshare.Proofs.Wire.Sizes
import Workshare.Proofs.Wire.Work
import Workshare.Proofs.Workshop.Turnouts

namespace Workshare

open Wire

/-- What an executor says about a work is brief, but for the failure of a work whose end is waited for. -/
inductive Outcome.OfExecutor (mode : Mode) : Outcome → Prop
  | begun (delay : Option UInt64) : OfExecutor mode (.ok delay)
  | refused {e : WorkError} : Utf8.size e.message ≤ 200 → OfExecutor mode (.error e)
  | failed (fault : HandlerFault) : mode = .run → OfExecutor mode (.error (.failed fault.message))

/-- The start timeout of a pool is a span of time that can be told. -/
def Executor.Timed : Executor → Prop
  | .script _ => True
  | .pool p => p.startTimeout.Valid

theorem Pool.size_noWorker_le {p : Pool} (timed : p.startTimeout.Valid) (long : Bool) :
    Utf8.size (WorkError.rejected (p.noWorker long)).message ≤ 200 := by
  have limit := Duration.size_text_le timed
  have kind : Utf8.size (if long then "long-running" else "short-running") ≤ 13 := by
    cases long <;> decide
  have front : Utf8.size "work rejected: " = 15 := by decide
  have start : Utf8.size "no " = 3 := by decide
  have middle : Utf8.size " worker free within " = 20 := by decide
  unfold WorkError.message noWorker
  simp only [Utf8.size_append]
  omega

/-- What a go at an errand comes to: it is still the same one, or it has ended with what an executor says. -/
def Errand.Advances (e : Errand) : Progress Errand Outcome → Prop
  | .waits e' => e'.host = e.host ∧ e'.mode = e.mode ∧ e'.work = e.work ∧ e'.Sound
  | .ends outcome => outcome.OfExecutor e.mode

namespace Cluster

variable {c c' : Cluster} {n p q : NodeId} {t : Ticket} {op : UInt16} {body : List UInt8} {bytes : ReplyBytes}

/-- Whatever executors there are, their start timeouts can be told. -/
def Timed (c : Cluster) : Prop :=
  ∀ n x, c.executor? n = some x → x.Timed

namespace Timed

theorem congr (h : c.Timed) (same : ∀ q, c'.executor? q = c.executor? q) : c'.Timed :=
  fun q x hx => h q x (same q ▸ hx)

theorem withLane {α : Type} (h : c.Timed) (n : NodeId) (long : Bool) (f : Lane → Lane × α) :
    (c.withLane n long f).1.Timed := by
  unfold Cluster.withLane
  split
  next pool manager book limit host =>
    intro q x hx
    rw [executor?_setHost] at hx
    split at hx
    next =>
      cases hx
      show ((pool.setLane long _).startTimeout).Valid
      rw [Pool.startTimeout_setLane]
      refine h n (.pool pool) ?_
      unfold Cluster.executor?
      rw [host]
      rfl
    next => exact h q x hx
  next => exact h

theorem of_withLane {α : Type} (h : c.Timed) {long : Bool} {f : Lane → Lane × α} {a : Option α}
    (hc : c.withLane n long f = (c', a)) : c'.Timed := by
  have changed := h.withLane n long f
  rwa [hc] at changed

theorem tell (h : c.Timed) (n : NodeId) (act : Manager → Manager) : (c.tell n act).Timed :=
  h.congr (executor?_tell c n act)

theorem pace {T : Traffic} {A : Audience} {s s' : Cluster × Hand} (h : s.1.Timed) (pace : Pace T A t s s') :
    s'.1.Timed := by
  cases pace with
  | aside same => exact h.congr (executor?_congr same.hosts)
  | note _ => exact h.congr fun _ => rfl
  | spawn _ _ _ => exact h.congr fun _ => rfl
  | ask hc => exact h.of_withLane hc
  | collect hc => exact h.of_withLane hc
  | wait => exact h
  | quit hc => exact h.of_withLane hc
  | hire _ _ _ => exact h.congr fun _ => rfl
  | giveBack hc => exact h.of_withLane hc
  | drop _ _ => exact h.congr fun _ => rfl
  | vain _ _ _ => exact h
  | handOver p _ _ => exact h.tell p _
  | keep hc _ => exact h.congr (executor?_managed hc)
  | pass hc _ => exact h.congr (executor?_managed hc)
  | reject p _ _ => exact h.tell p _
  | report p _ _ => exact h.tell p _
  | complete p _ _ => exact h.tell p _
  | scripted _ _ _ => exact h.tell _ _
  | write _ _ => exact h
  | post sender targets _ => exact h.congr (executor?_post sender targets _ _)
  | discard => exact h
  | look p => exact h.tell p _
  | learn _ => exact h.tell _ _
  | hear _ _ _ => exact h.tell _ _
  | join _ _ => exact h.congr (executor?_addMember _ _ _)
  | leave _ _ => exact h.congr (executor?_removeMember _ _)

theorem resume (h : c.Timed) (t : Ticket) (task : Task) : (c.resume t task).Timed := by
  obtain ⟨c₁, timed, ⟨left, same⟩ | ⟨said, same⟩⟩ := resume_keeps (fun _ _ last h => pace h last) h task
  · rw [same]
    exact timed.congr fun _ => rfl
  · rw [same]
    exact timed.congr fun _ => rfl

theorem summon (h : c.Timed) (task : Task) : (c.summon task).Timed := by
  have numbered : c.numbered.Timed := h.congr fun _ => rfl
  exact numbered.resume c.fresh task

end Timed

/-- Anything goes, but executors are replaced by such whose start timeouts can be told. -/
def timely : Terms :=
  { Terms.any with
    executors := fun _ x y => x.Timed → y.Timed
    keeping := fun _ _ h => h }

theorem Timed.drift (h : c.Timed) (drift : Drift timely c c') : c'.Timed := by
  cases drift with
  | aside same => exact h.congr (executor?_congr same.hosts)
  | spawn _ _ _ => exact h.congr fun _ => rfl
  | network net => exact h.congr fun _ => rfl
  | view _ => exact h.congr (executor?_onView _ _)
  | enter p => exact h.congr (executor?_addMember _ _ _)
  | broadcast p _ => exact h.congr (executor?_congr (hosts_broadcast c p _))
  | post p targets _ => exact h.congr (executor?_post _ _ _ _)
  | move _ _ _ => exact h.tell _ _
  | announce p => exact h.tell _ _
  | depart p => exact h.congr fun q => (executor?_tell _ _ _ q).trans (executor?_withBook p _ q)
  | @alter p f _ _ kept =>
    intro q y hy
    rw [executor?_alter] at hy
    split at hy
    next =>
      obtain ⟨x, hx, rfl⟩ := Option.map_eq_some_iff.mp hy
      exact kept x (h p x.executor (Option.map_eq_some_iff.mpr ⟨x, hx, rfl⟩))
    next => exact h q y hy

theorem Timed.drifts (h : c.Timed) (drifts : Drifts timely c c') : c'.Timed := by
  induction drifts with
  | refl => exact h
  | tail _ last ih => exact ih.drift last

theorem Timed.undergo (h : c.Timed) {x : Occurrence} (executors : ∀ p e inner, x = .deed (.executor p e) inner → e.Timed) :
    (c.undergo x).Timed := by
  cases x with
  | deed d inner =>
    by_cases free : ∃ w, d = .begin w
    · obtain ⟨w, rfl⟩ := free
      exact h.summon (w.task c.now)
    by_cases idle : ∃ t, d = .go t
    · obtain ⟨t, rfl⟩ := idle
      show (c.poll t).Timed
      unfold poll
      split
      next => exact h.resume t _
      next => exact h
    refine h.drifts (drifts_does inner (fun w e => free ⟨w, e⟩) (fun t e => idle ⟨t, e⟩) (fun _ _ _ _ => trivial) ?_)
    rintro p e rfl _ _
    exact executors p e inner rfl
  | message n op body => exact h.summon (.serve n op body)
  | view n members => exact h.drifts (.single (.view trivial))

theorem advances_begin (c : Cluster) (t : Ticket) (e : Errand) (since : Nat) : e.Advances (c.begin t e since).2 := by
  unfold begin
  split
  next hm => exact ⟨rfl, rfl, rfl, fun _ _ => hm⟩
  next => exact .begun _
  next => exact .begun none

theorem advances_reject (c : Cluster) (t : Ticket) (e : Errand) {p : Pool} (timed : p.startTimeout.Valid) :
    e.Advances (c.reject t e p).2 := by
  unfold reject
  exact .refused (Pool.size_noWorker_le timed _)

theorem advances_readScript (c : Cluster) (e : Errand) (s : Script) : e.Advances (c.readScript e s).2 := by
  unfold readScript settle
  dsimp only
  show (s.outcome e.mode).OfExecutor e.mode
  unfold Script.outcome
  split
  next => exact .refused (by decide)
  next =>
    split
    next =>
      split
      next => exact .refused (by decide)
      next => exact .begun none
    next => exact .begun _
    next => exact .begun none

theorem Timed.advances_pollErrand (timed : c.Timed) {e : Errand} (sound : e.Sound) (t : Ticket) :
    e.Advances (c.pollErrand t e).2 := by
  have still : e.Advances (.waits e) := ⟨rfl, rfl, rfl, sound⟩
  unfold pollErrand
  split
  next =>
    split
    next => exact advances_readScript c e _
    next => exact still
  next hx =>
    split
    next => exact advances_begin _ t e _
    next =>
      split
      next => exact advances_reject _ t e (timed _ _ hx)
      next => exact still
  next runner hw =>
    split
    next verdict _ =>
      cases verdict with
      | ok _ => exact .begun none
      | error fault => exact .failed fault (sound runner hw)
    next => exact still
  next => exact still

theorem Timed.advances_execute (timed : c.Timed) (t : Ticket) (n : NodeId) (mode : Mode) (work : Work) (wait : Wait) :
    Errand.Advances ⟨n, mode, work, wait⟩ (c.execute t n mode work).2 := by
  unfold execute
  split
  next =>
    dsimp only
    split
    next => exact advances_readScript c _ _
    next => exact ⟨rfl, rfl, rfl, fun _ hw => by cases hw⟩
  next hx =>
    dsimp only
    split
    next => exact advances_begin _ t ⟨n, mode, work, _⟩ _
    next =>
      split
      next => exact advances_reject _ t ⟨n, mode, work, _⟩ (timed _ _ hx)
      next => exact ⟨rfl, rfl, rfl, fun _ hw => by cases hw⟩
  next => exact .refused (by decide)

/-- What there is to reply to a request. -/
inductive Due (op : UInt16) (body : List UInt8) : ReplyBytes → Prop
  | refused {e : ChannelError} : Request.decode .string op body = (.error e : Except ChannelError (Request String)) →
      Due op body (.error e)
  | answered {r : ReplyResult} : r.size ≤ 36 → Due op body (encodeReply r)
  | settled {request : Request String} {mode : Mode} {work : Work} {outcome : Outcome} :
      Request.decode .string op body = .ok request → request.submission? = some (mode, work) →
      outcome.OfExecutor mode → Due op body (encodeReply outcome.reply)

/-- What has become of a request: the errand of the work that it submits, or the reply to it. -/
inductive Pending (op : UInt16) (body : List UInt8) : Option Task → List Answer → Prop
  | waits {request : Request String} {work : Work} {e : Errand} : Request.decode .string op body = .ok request →
      request.submission? = some (e.mode, work) → e.Sound → Pending op body (some (.errand e .requester)) []
  | replied {bytes : ReplyBytes} : Due op body bytes → Pending op body none [.reply bytes]

theorem size_answerNow (c : Cluster) (n : NodeId) (request : Request String) : (c.answerNow n request).2.size ≤ 36 := by
  have value (k : UInt64) : ReplyResult.size (.ok (.value k)) ≤ 36 := by
    show 16 ≤ 36
    decide
  have acted (r : Reply) : ReplyResult.size (.ok r) ≤ 36 := by
    cases r with
    | done => decide
    | value k => exact value k
  have absent : ReplyResult.size (.error "no work manager attached") ≤ 36 := by decide
  unfold answerNow
  dsimp only
  split
  next => exact acted .done
  next => exact acted .done
  next => exact value _
  all_goals
    split
    next => exact acted _
    next => exact absent

theorem told_park (same : c'.answers = c.answers) (t : Ticket) (task : Task) : (c'.park t task).told t = c.told t :=
  told_congr same t

theorem told_finish (same : c'.answers = c.answers) (t : Ticket) (a : Answer) :
    (c'.finish t (some a)).told t = c.told t ++ [a] := by
  have said : (c'.finish t (some a)).answers = c.answers ++ ((some a).map (t, ·)).toList := congrArg (· ++ _) same
  exact Course.told_of_own said

theorem get?_park (c : Cluster) (t : Ticket) (task : Task) : (c.park t task).tasks.get? t = some task :=
  (Table.get?_insert _ _ _ _).trans (if_pos rfl)

theorem get?_finish (c : Cluster) (t : Ticket) (said : Option Answer) : (c.finish t said).tasks.get? t = none :=
  (Table.get?_erase _ _ _).trans (if_pos rfl)

/-- What serving a request comes to. -/
def Opens (op : UInt16) (body : List UInt8) : Progress Errand ReplyBytes → Prop
  | .waits e => ∃ request work, Request.decode .string op body = .ok request ∧
      request.submission? = some (e.mode, work) ∧ e.Sound
  | .ends bytes => Due op body bytes

theorem Timed.opens_serve (timed : c.Timed) (t : Ticket) (n : NodeId) (op : UInt16) (body : List UInt8) :
    Opens op body (c.serve t n op body).2 := by
  unfold serve
  split
  next hd => exact .refused hd
  next request hd =>
    split
    next mode work m hs hm =>
      have handed : (c.tell n (·.handOver (c.free n) mode work)).Timed := timed.tell n _
      have advances := handed.advances_execute t n mode work (.pause 0)
      have here : c.submitHere t n mode work = (c.tell n (·.handOver (c.free n) mode work)).execute t n mode work := rfl
      rw [here]
      split
      next e he =>
        rw [he] at advances
        obtain ⟨_, same, _, sound⟩ := advances
        exact ⟨request, work, hd, by rw [same]; exact hs, sound⟩
      next outcome ho =>
        rw [ho] at advances
        exact .settled hd hs advances
    next => exact .answered (size_answerNow c n request)

theorem Timed.pending_summon (timed : c.Timed) (silent : c.told c.fresh = []) (n : NodeId) (op : UInt16)
    (body : List UInt8) : Pending op body ((c.summon (.serve n op body)).tasks.get? c.fresh)
      ((c.summon (.serve n op body)).told c.fresh) := by
  have numbered : c.numbered.Timed := timed.congr fun _ => rfl
  have opens := numbered.opens_serve c.fresh n op body
  have fares : Fares .any .any c.fresh (c.numbered, .message n op body) (c.numbered.serve c.fresh n op body) :=
    fares_serve c.fresh (fun _ _ _ => trivial) fun _ _ _ _ => trivial
  have same := fares.answers
  rw [summon_eq, Cluster.resume]
  split
  next c₁ e hs =>
    rw [hs] at opens same
    obtain ⟨request, work, read, submits, sound⟩ := opens
    rw [get?_park, told_park (c := c) same, silent]
    exact .waits read submits sound
  next c₁ bytes hs =>
    rw [hs] at opens same
    rw [get?_finish, told_finish (c := c) same, silent]
    exact .replied opens

theorem Timed.pending_poll (timed : c.Timed) (h : Pending op body (c.tasks.get? t) (c.told t)) :
    Pending op body ((c.poll t).tasks.get? t) ((c.poll t).told t) := by
  unfold poll
  cases hp : c.tasks.get? t with
  | none =>
    rw [hp] at h
    dsimp only
    rwa [hp]
  | some task =>
    rw [hp] at h
    generalize silent : c.told t = said at h
    cases h with
    | @waits request work e read submits sound =>
      have advances := timed.advances_pollErrand sound t
      have fares : Fares .any .any t (c, e.hand) (c.pollErrand t e) := fares_pollErrand t e
      have same := fares.answers
      show Pending op body ((c.resume t (.errand e .requester)).tasks.get? t) ((c.resume t (.errand e .requester)).told t)
      rw [Cluster.resume]
      revert advances same
      generalize c.pollErrand t e = s
      obtain ⟨c₁, progress⟩ := s
      intro advances same
      cases progress with
      | waits e' =>
        obtain ⟨_, mode, _, sound'⟩ := advances
        show Pending op body ((c₁.park t _).tasks.get? t) ((c₁.park t _).told t)
        rw [get?_park, told_park same, silent]
        exact .waits read (by rw [mode]; exact submits) sound'
      | ends outcome =>
        show Pending op body ((c₁.finish t _).tasks.get? t) ((c₁.finish t _).told t)
        rw [get?_finish, told_finish same, silent]
        exact .replied (.settled read submits advances)

/-- A request stays pending until it has its reply, whatever happens meanwhile. -/
theorem Timed.pending_course (timed : c.Timed) (young : t < c.fresh) {course : List Occurrence}
    (executors : ∀ p e inner, .deed (.executor p e) inner ∈ course → e.Timed)
    (h : Pending op body (c.tasks.get? t) (c.told t)) :
    Pending op body ((course.foldl Cluster.undergo c).tasks.get? t) ((course.foldl Cluster.undergo c).told t) := by
  induction course generalizing c with
  | nil => exact h
  | cons x course ih =>
    have step : c.fresh ≤ (c.undergo x).fresh ∧
        Pending op body ((c.undergo x).tasks.get? t) ((c.undergo x).told t) := by
      by_cases own : ∃ inner, x = .deed (.go t) inner
      · obtain ⟨inner, rfl⟩ := own
        exact ⟨fresh_poll c t, timed.pending_poll h⟩
      · have spares := spares_undergo young fun inner e => own ⟨inner, e⟩
        refine ⟨spares.fresh, ?_⟩
        rwa [spares.task, spares.told]
    have changed : (c.undergo x).Timed := timed.undergo fun p e inner hx => executors p e inner (hx ▸ List.mem_cons_self)
    refine ih changed (Nat.lt_of_lt_of_le young step.1) ?_ step.2
    exact fun p e inner hx => executors p e inner (List.mem_cons_of_mem x hx)

theorem length_answer (id : UInt64) (op : UInt16) (body : List UInt8) (bytes : ReplyBytes) :
    ∃ answer, (Frame.request id op body true).answer? bytes = some answer ∧
      answer.length = 24 + FrameResult.size (bytes.mapError ChannelError.message) :=
  ⟨_, rfl, Frame.length_reply id _⟩

theorem size_encodeReply (r : ReplyResult) : FrameResult.size ((encodeReply r).mapError ChannelError.message) = r.size :=
  r.length_codec

theorem size_failed (text : String) : ReplyResult.size (.error ("work failed: " ++ text)) = 25 + Utf8.size text := by
  have front : Utf8.size "work failed: " = 13 := by decide
  show 12 + Utf8.size ("work failed: " ++ text) = _
  rw [Utf8.size_append, front]
  omega

/-- If a request fits into a datagram, the reply that is due is a small one or the failure of a handler. -/
theorem Due.size (due : Due op body bytes) (small : body.length < 10 ^ 5) :
    FrameResult.size (bytes.mapError ChannelError.message) ≤ 212 ∨ ∃ (work : Work) (fault : HandlerFault),
      Request.decode .string op body = .ok (.doWork work) ∧ bytes = encodeReply (.error ("work failed: " ++ fault.message)) := by
  cases due with
  | refused hd => exact .inl (Nat.le_trans (Request.size_decode_error hd small) (by decide : 123 ≤ 212))
  | answered short =>
    rw [size_encodeReply]
    exact .inl (Nat.le_trans short (by decide : 36 ≤ 212))
  | @settled request mode work outcome hd hs said =>
    cases said with
    | begun delay =>
      rw [size_encodeReply]
      refine .inl ?_
      cases delay with
      | none => exact (by decide : 8 ≤ 212)
      | some k => exact (by decide : 16 ≤ 212)
    | refused short =>
      rw [size_encodeReply]
      exact .inl (Nat.add_le_add_left short 12)
    | failed fault run =>
      rw [run] at hs
      refine .inr ⟨work, fault, ?_, rfl⟩
      cases request <;> cases hs
      exact hd

/-- Whatever request fits into a datagram, its reply fits, too, or is the failure of a handler in the handler's words. -/
theorem reply_fits (timed : c.Timed) (silent : c.told c.fresh = []) {course : List Occurrence}
    (executors : ∀ p e inner, .deed (.executor p e) inner ∈ course → e.Timed) {id : UInt64}
    (fits : (Frame.codec.write (.request id op body true)).length ≤ Frame.maxSize) {bytes : ReplyBytes}
    (told : .reply bytes ∈ (course.foldl Cluster.undergo (c.summon (.serve n op body))).told c.fresh) :
    ∃ answer, (Frame.request id op body true).answer? bytes = some answer ∧
      (answer.length ≤ Frame.maxSize ∨ ∃ (work : Work) (fault : HandlerFault), Request.decode .string op body = .ok (.doWork work) ∧
        bytes = encodeReply (.error ("work failed: " ++ fault.message)) ∧
        answer.length = 49 + Utf8.size fault.message ∧ Frame.maxSize < answer.length) := by
  have summoned : (c.summon (.serve n op body)).Timed := timed.summon _
  have pending := summoned.pending_course (fresh_summon c _) executors (timed.pending_summon silent n op body)
  have due : Due op body bytes := by
    revert told pending
    generalize (course.foldl Cluster.undergo (c.summon (.serve n op body))).told c.fresh = said
    generalize (course.foldl Cluster.undergo (c.summon (.serve n op body))).tasks.get? c.fresh = task
    intro told pending
    cases pending with
    | waits _ _ _ => cases told
    | replied due =>
      cases List.mem_singleton.mp told
      exact due
  obtain ⟨answer, sent, length⟩ := length_answer id op body bytes
  refine ⟨answer, sent, ?_⟩
  have small : body.length < 10 ^ 5 := by
    rw [Correlation.length_request] at fits
    unfold Frame.maxSize at fits
    omega
  rcases due.size small with short | ⟨work, fault, read, failed⟩
  · refine .inl ?_
    unfold Frame.maxSize
    omega
  · by_cases large : Frame.maxSize < answer.length
    · refine .inr ⟨work, fault, read, failed, ?_, large⟩
      rw [length, failed, size_encodeReply, size_failed]
      omega
    · exact .inl (Nat.le_of_not_lt large)

section Unknown

variable {pool : Pool} {work : Work}

theorem poll_task {task : Task} (h : c.tasks.get? t = some task) : c.poll t = c.resume t task := by
  unfold poll
  rw [h]

theorem foldl_inTurn (c : Cluster) (ts : List Ticket) : (inTurn ts).foldl Cluster.undergo c = ts.foldl Cluster.poll c :=
  List.foldl_map

/-- A host with a free worker hires it for a request to run a work. -/
theorem summon_hired (lone : c.Lone n pool) (managed : (c.manager? n).isSome)
    (read : Request.decode .string op body = .ok (.doWork work)) (idle : 0 < (pool.lane work.longRunning).free) :
    ∃ pool' : Pool, pool'.handlers = pool.handlers ∧
      Yields n c.fresh c.numbered (c.summon (.serve n op body)) ⟨pool', some (.runner n work (some c.fresh) none),
        c.verdicts, [], some (.errand ⟨n, .run, work, .finish (c.fresh + 1)⟩ .requester), none⟩ := by
  obtain ⟨k, free⟩ := Nat.exists_eq_succ_of_ne_zero (Nat.ne_of_gt idle)
  have numbered : c.numbered.Lone n pool := lone
  have managed : (c.numbered.manager? n).isSome := managed
  have fresh : c.numbered.fresh = c.fresh + 1 := rfl
  have posted : c.numbered.verdicts = c.verdicts := rfl
  rw [summon_eq]
  revert numbered managed fresh posted
  generalize c.numbered = c₀
  intro numbered managed fresh posted
  obtain ⟨m, hm⟩ := Option.isSome_iff_exists.mp managed
  have told := (Comes.start numbered).rest (.tell numbered (·.handOver (c₀.free n) .run work))
  rw [resume]
  unfold serve
  rw [read]
  simp only [Request.submission?, hm]
  unfold submitHere
  dsimp only
  revert told
  generalize c₀.tell n (·.handOver (c₀.free n) .run work) = c₁
  intro told
  obtain ⟨asked, answer⟩ := told.withLane work.longRunning (·.ask c.fresh)
  unfold execute
  simp only [told.lone.executor?]
  revert asked answer
  generalize c₁.withLane n work.longRunning (·.ask c.fresh) = r
  obtain ⟨c₂, a⟩ := r
  rintro asked rfl
  have got : ((pool.lane work.longRunning).ask c.fresh).2 = true := by
    unfold Lane.ask
    rw [free]
  dsimp only at asked ⊢
  rw [got]
  obtain ⟨hired, runner⟩ := asked.spawn rfl (.runner n work (some c.fresh) none)
  refine ⟨pool.setLane work.longRunning ((pool.lane work.longRunning).ask c.fresh).1, ?_, ?_⟩
  · cases work.longRunning <;> rfl
  · have parked := hired.park c.fresh (.errand ⟨n, .run, work, .finish (c.fresh + 1)⟩ .requester)
    rw [posted] at parked
    unfold begin
    dsimp only
    rw [runner, fresh]
    exact parked

theorem Yields.get? {y : Yield} (h : Yields n t c c' y) {v : Ticket} (other : v ≠ t) (old : v < c.fresh) :
    c'.tasks.get? v = c.tasks.get? v := by
  rw [h.task, if_neg other, if_neg (Nat.ne_of_lt old)]

theorem poll_manned (lone : c.Lone n pool) {waiter : Option Ticket}
    (runner : c.tasks.get? t = some (.runner n work waiter none)) :
    Yields n t c (c.poll t) ⟨pool, some (.handler n work (some t) .fresh), c.verdicts, [],
      some (.runner n work waiter (some c.fresh)), none⟩ := by
  rw [poll_task runner, resume]
  exact ((Comes.start lone).spawn rfl _).1.park t _

theorem poll_unknown (lone : c.Lone n pool) {r : Ticket}
    (handler : c.tasks.get? t = some (.handler n work (some r) .fresh)) (unknown : pool.handlers.get? work.handler = none) :
    Yields n t c (c.poll t) ⟨pool, none, c.verdicts.insert t (Registry.unknown work.handler), [], none, none⟩ := by
  rw [poll_task handler, resume, pollHandler, lone.handlers, unknown]
  exact (Comes.start lone).report t r _

theorem poll_retired (lone : c.Lone n pool) {w h : Ticket} {verdict : Verdict}
    (runner : c.tasks.get? t = some (.runner n work (some w) (some h))) (posted : c.verdicts.get? h = some verdict) :
    ∃ y, Yields n t c (c.poll t) y ∧ y.verdicts.get? t = some verdict := by
  obtain ⟨y, turnout, yields⟩ := turnout_runner (t := t) lone work (some w) (some h)
  rw [poll_task runner]
  refine ⟨y, yields, ?_⟩
  cases turnout with
  | seeks seeks => cases seeks.isSeeker
  | attends absent =>
    rw [posted] at absent
    cases absent
  | retired left =>
    rw [posted] at left
    cases left
    exact (Table.get?_insert _ _ _ _).trans (if_pos rfl)

theorem told_poll_finish {r : Ticket} {fault : HandlerFault}
    (errand : c.tasks.get? t = some (.errand ⟨n, .run, work, .finish r⟩ .requester))
    (posted : c.verdicts.get? r = some (.error fault)) :
    .reply (encodeReply (.error ("work failed: " ++ fault.message))) ∈ (c.poll t).told t := by
  rw [poll_task errand, resume]
  simp only [pollErrand, posted]
  show _ ∈ (Cluster.finish _ t (some (.reply (encodeReply (.error ("work failed: " ++ fault.message)))))).told t
  rw [told_finish rfl]
  exact List.mem_append_right _ (List.mem_singleton_self _)

/-- Once it has been hired, a runner starts the handler, hears that there is none of this name, and passes this on. -/
theorem told_hired (lone : c.Lone n pool) (unknown : pool.handlers.get? work.handler = none) (fresh : c.fresh = t + 2)
    (errand : c.tasks.get? t = some (.errand ⟨n, .run, work, .finish (t + 1)⟩ .requester))
    (runner : c.tasks.get? (t + 1) = some (.runner n work (some t) none)) :
    .reply (encodeReply (.error ("work failed: " ++ ("Unknown work handler: " ++ work.handler)))) ∈
      ((((c.poll (t + 1)).poll (t + 2)).poll (t + 1)).poll t).told t := by
  have earlier {v : Ticket} (k : Nat) : v < v + (k + 1) := Nat.lt_add_of_pos_right (Nat.succ_pos k)
  have manned := poll_manned lone runner
  have handler : (c.poll (t + 1)).tasks.get? (t + 2) = some (.handler n work (some (t + 1)) .fresh) := by
    rw [manned.task, if_neg (Nat.ne_of_gt (earlier 0)), fresh, if_pos rfl]
    rfl
  have attending : (c.poll (t + 1)).tasks.get? (t + 1) = some (.runner n work (some t) (some (t + 2))) := by
    rw [manned.task, if_pos rfl, fresh]
  have waiting := (manned.get? (Nat.ne_of_lt (earlier 0)) (by rw [fresh]; exact earlier 1)).trans errand
  have fresh₁ : (c.poll (t + 1)).fresh = t + 3 := by
    rw [manned.fresh, fresh]
    rfl
  have lone₁ : (c.poll (t + 1)).Lone n pool := manned.lone
  revert handler attending waiting fresh₁ lone₁
  generalize c.poll (t + 1) = c₁
  intro handler attending waiting fresh₁ lone₁
  have ended := poll_unknown lone₁ handler unknown
  have posted : (c₁.poll (t + 2)).verdicts.get? (t + 2) = some (Registry.unknown work.handler) := by
    rw [ended.verdicts]
    exact (Table.get?_insert _ _ _ _).trans (if_pos rfl)
  have attending := (ended.get? (Nat.ne_of_lt (earlier 0)) (by rw [fresh₁]; exact earlier 1)).trans attending
  have waiting := (ended.get? (Nat.ne_of_lt (earlier 1)) (by rw [fresh₁]; exact earlier 2)).trans waiting
  have fresh₂ : (c₁.poll (t + 2)).fresh = t + 3 := ended.fresh.trans fresh₁
  have lone₂ : (c₁.poll (t + 2)).Lone n pool := ended.lone
  revert posted attending waiting fresh₂ lone₂
  generalize c₁.poll (t + 2) = c₂
  intro posted attending waiting fresh₂ lone₂
  obtain ⟨y, retired, passed⟩ := poll_retired lone₂ attending posted
  have waiting := (retired.get? (Nat.ne_of_lt (earlier 0)) (by rw [fresh₂]; exact earlier 2)).trans waiting
  have known : (c₂.poll (t + 1)).verdicts.get? (t + 1) =
      some (.error (.failed ("Unknown work handler: " ++ work.handler))) := by
    rw [retired.verdicts]
    exact passed
  have told := told_poll_finish waiting known
  exact told

/-- The name of a handler that nobody has comes back in the reply. -/
theorem told_unknown (lone : c.Lone n pool) (managed : (c.manager? n).isSome)
    (read : Request.decode .string op body = .ok (.doWork work)) (idle : 0 < (pool.lane work.longRunning).free)
    (unknown : pool.handlers.get? work.handler = none) :
    .reply (encodeReply (.error ("work failed: " ++ ("Unknown work handler: " ++ work.handler)))) ∈
      ((inTurn [c.fresh + 1, c.fresh + 2, c.fresh + 1, c.fresh]).foldl Cluster.undergo
        (c.summon (.serve n op body))).told c.fresh := by
  obtain ⟨pool', same, hired⟩ := summon_hired lone managed read idle
  have errand := (hired.task c.fresh).trans (if_pos rfl)
  have runner := (hired.task (c.fresh + 1)).trans ((if_neg (Nat.succ_ne_self _)).trans (if_pos rfl))
  simp only [foldl_inTurn, List.foldl_cons, List.foldl_nil]
  exact told_hired hired.lone (by rw [same]; exact unknown) hired.fresh errand runner

end Unknown

/-- One host, and a work whose handler it does not have. -/
def solitary : Cluster :=
  start [(⟨"b"⟩, vacant ⟨"b"⟩)]

def naming (handler : String) : Work :=
  ⟨⟨""⟩, handler, .null, false, false⟩

theorem told_naming {handler : String} (fits : Fits handler) :
    .reply (encodeReply (.error ("work failed: " ++ ("Unknown work handler: " ++ handler)))) ∈
      ((inTurn [1, 2, 1, 0]).foldl Cluster.undergo
        (solitary.summon (.serve ⟨"b"⟩ Operation.doWork.id (Work.codec.write (naming handler))))).told 0 := by
  have lone : solitary.Lone ⟨"b"⟩ ⟨.ofSize 2, .ofSize 2, ⟨1000000⟩, .empty⟩ := ⟨_, _, _, rfl, rfl⟩
  have portable : (naming handler).Portable := ⟨(by decide : Fits ""), fits, (by decide : Fits Json.Value.null.text), trivial⟩
  have read : Request.decode .string Operation.doWork.id (Work.codec.write (naming handler)) =
      .ok (.doWork (naming handler)) := Request.decode_submit portable .run
  have told := told_unknown lone rfl read (by decide : 0 < 2) rfl
  exact told

theorem length_naming (handler : String) :
    (Frame.codec.write (.request 1 Operation.doWork.id (Work.codec.write (naming handler)) true)).length =
      53 + Utf8.size handler := by
  have id : Utf8.size (naming handler).id.text = 0 := rfl
  have payload : Utf8.size (naming handler).payload.text = 4 := (by decide : Utf8.size Json.Value.null.text = 4)
  have name : (naming handler).handler = handler := rfl
  rw [Correlation.length_request, Work.length_codec, id, payload, name]
  omega

theorem reply_fits_naming : ∃ answer,
    (Frame.request 1 Operation.doWork.id (Work.codec.write (naming "h")) true).answer?
      (encodeReply (.error ("work failed: " ++ ("Unknown work handler: " ++ "h")))) = some answer ∧
    (answer.length ≤ Frame.maxSize ∨ ∃ (work : Work) (fault : HandlerFault),
      Request.decode .string Operation.doWork.id (Work.codec.write (naming "h")) = .ok (.doWork work) ∧
      encodeReply (.error ("work failed: " ++ ("Unknown work handler: " ++ "h"))) =
        encodeReply (.error ("work failed: " ++ fault.message)) ∧
      answer.length = 49 + Utf8.size fault.message ∧ Frame.maxSize < answer.length) := by
  have timed : solitary.Timed := by
    intro n x hx
    obtain ⟨h, hh, rfl⟩ := Option.map_eq_some_iff.mp hx
    obtain ⟨rfl, rfl⟩ := Prod.mk.inj (List.mem_singleton.mp (hosts_start hh))
    show 1000000 < 2 ^ 64 * 1000000000
    decide
  have fits : (Frame.codec.write (.request 1 Operation.doWork.id (Work.codec.write (naming "h")) true)).length ≤
      Frame.maxSize := by
    rw [length_naming]
    decide
  have goes : ∀ p e inner, .deed (.executor p e) inner ∈ inTurn [1, 2, 1, 0] → e.Timed := by
    intro p e inner hx
    obtain ⟨t, _, same⟩ := List.mem_map.mp hx
    cases same
  exact reply_fits timed rfl goes fits (told_naming (by decide))

/-- A request names a handler that nobody has. It fits, and what comes back, which repeats the name, does not. -/
theorem reply_too_large : ∃ handler answer,
    .reply (encodeReply (.error ("work failed: " ++ ("Unknown work handler: " ++ handler)))) ∈
      ((inTurn [1, 2, 1, 0]).foldl Cluster.undergo
        (solitary.summon (.serve ⟨"b"⟩ Operation.doWork.id (Work.codec.write (naming handler))))).told 0 ∧
    (Frame.codec.write (.request 1 Operation.doWork.id (Work.codec.write (naming handler)) true)).length ≤ Frame.maxSize ∧
    (Frame.request 1 Operation.doWork.id (Work.codec.write (naming handler)) true).answer?
      (encodeReply (.error ("work failed: " ++ ("Unknown work handler: " ++ handler)))) = some answer ∧
    Frame.maxSize < answer.length := by
  have size : Utf8.size (String.ofList (List.replicate 65440 'h')) = 65440 := by
    unfold Utf8.size
    rw [String.toList_ofList, Utf8.length_encode_replicate]
    rfl
  revert size
  generalize String.ofList (List.replicate 65440 'h') = handler
  intro size
  have fits : Fits handler := by
    show Utf8.size handler < 2 ^ 64
    rw [size]
    decide
  obtain ⟨answer, sent, length⟩ := length_answer 1 Operation.doWork.id (Work.codec.write (naming handler))
    (encodeReply (.error ("work failed: " ++ ("Unknown work handler: " ++ handler))))
  refine ⟨handler, answer, told_naming fits, ?_, sent, ?_⟩
  · rw [length_naming, size]
    decide
  · have front : Utf8.size "Unknown work handler: " = 22 := by decide
    rw [length, size_encodeReply, size_failed, Utf8.size_append, size, front]
    decide

end Cluster

end Workshare
