import Workshare.Proofs.Cluster.Execution

namespace Workshare

open Wire

namespace Request

/-- What is read where a submission was written is a submission in the same mode. -/
theorem submit_of_decode {mode : Mode} {work : Work} {r : Request String}
    (h : decode .string (encode .string (submit mode work)).1 (encode .string (submit mode work)).2 = .ok r) :
    ∃ v, r = submit mode v := by
  have hop : r.operation = (submit mode work : Request String).operation := operation_of_decode h
  cases mode <;> cases r <;> first | exact ⟨_, rfl⟩ | cases hop

theorem submission?_submit (mode : Mode) (work : Work) :
    (submit mode work : Request String).submission? = some (mode, work) := by
  cases mode <;> rfl

end Request

/-- What a peer reads when a work is sent to it. -/
def Arrives (mode : Mode) (work v : Work) : Prop :=
  Request.decode .string (Request.encode .string (.submit mode work)).1
    (Request.encode .string (.submit mode work)).2 = .ok (.submit mode v)

namespace Cluster

variable {c : Cluster}

/-- Other requests are for the manager, which hears the notice in them, if there is one. -/
theorem answerNow_manage (n : NodeId) {r : Request String} (awake : r ≠ .ping) (stays : ∀ p a, r ≠ .join p a)
    (goes : ∀ p, r ≠ .leave p) :
    ∃ reply : Reply, (c.answerNow n r).1 = (c.manage n fun m => (r.notice?.elim m m.hear, reply)).1 := by
  cases r with
  | join p a => exact absurd rfl (stays p a)
  | leave p => exact absurd rfl (goes p)
  | ping => exact absurd rfl awake
  | _ =>
    apply Exists.intro
    unfold answerNow
    dsimp only
    split
    next heq => exact (congrArg Prod.fst heq).symm
    next heq => exact (congrArg Prod.fst heq).symm

theorem works_answerNow (hs : c.Sane) (n : NodeId) {r : Request String} (hr : r.IsIdle) :
    Works c (c.answerNow n r).1 [] := by
  have asks : r ≠ .ping → (∀ p a, r ≠ .join p a) → (∀ p, r ≠ .leave p) → Works c (c.answerNow n r).1 [] := by
    intro awake stays goes
    obtain ⟨reply, answered⟩ := answerNow_manage (c := c) n awake stays goes
    rw [answered]
    refine works_manage_murmur hs n fun m => ?_
    cases r.notice? with
    | none => exact .refl m
    | some notice => exact Murmurs.hear m notice
  cases r with
  | join node address => exact works_addMember hs n node (hr.2 node address rfl)
  | leave node => exact works_removeMember hs n node
  | ping => exact .refl hs
  | _ => exact asks (by simp) (by simp) (by simp)

theorem serve_idle (hs : c.Sane) (t : Ticket) (n : NodeId) {op : UInt16} {body : List UInt8} (hi : Idle op body) :
    ∃ c' bytes, c.serve t n op body = (c', .ends bytes) ∧ Works c c' [] := by
  unfold serve
  cases hd : Request.decode .string op body with
  | error e => exact ⟨c, .error e, rfl, .refl hs⟩
  | ok r =>
    have idle := hi r hd
    dsimp only
    rw [idle.1]
    exact ⟨_, _, rfl, works_answerNow hs n idle⟩

/-- A submission that is not routed goes to the executor, once and without a question. -/
theorem goes_submitHere (hs : c.Sane) {n : NodeId} {m : Manager} (hm : c.manager? n = some m) (t : Ticket)
    (mode : Mode) (work : Work) (wait : Wait) :
    Goes c ⟨n, mode, work, wait⟩ [.effect n (.execute mode work)] (c.submitHere t n mode work) := by
  obtain ⟨h, hh, _, _, hout⟩ := manager_sane hs hm
  obtain ⟨told, ht, calm⟩ := handOver_outbox m (c.free n) mode work
  have kept : (m.handOver (c.free n) mode work).id = m.id := (Murmurs.announce m _ _).id
  have managed : Works c (c.tell n (·.handOver (c.free n) mode work)) _ := (works_manage hs hm kept).1
  have loud : (((m.handOver (c.free n) mode work).outbox.map (Event.effect n)).filter Event.isLoud) =
      [.effect n (.execute mode work)] := by
    rw [ht, hout, List.nil_append, List.map_append, List.filter_append, loud_of_calm calm]
    rfl
  rw [loud] at managed
  have there : (c.tell n (·.handOver (c.free n) mode work)).hosts.contains n := by
    have hh : c.hosts.get? n = some h := hh
    rw [managed.hosts, Table.contains, hh]
    rfl
  exact (goes_execute managed.sane there t mode work wait).after managed

section Calls

variable (stage : Exchange → List Event → Prop) (ends : List Event → Except WorkError Reply → Prop) (peer : NodeId)

/-- What an exchange with a peer has come to, together with what was heard of it before. -/
def Trades (c : Cluster) (before : List Event) : Cluster × Progress Exchange ReplyBytes → Prop
  | (c', .waits exchange) => ∃ more, Works c c' more ∧ stage exchange (before ++ more)
  | (c', .ends bytes) => ∃ more, Works c c' more ∧ ends (before ++ more) (received peer bytes)

def Calls (c : Cluster) (before : List Event) : Cluster × Progress Call (Except WorkError Reply) → Prop
  | (c', .waits call) =>
    ∃ more, Works c c' more ∧ stage call.exchange (before ++ more) ∧ call.peer = peer ∧ call.target = peer.text
  | (c', .ends r) => ∃ more, Works c c' more ∧ ends (before ++ more) r

variable {stage ends peer} {before : List Event}

/-- An exchange may end at any time because the call's time is over. -/
theorem calls_judge (late : ∀ exchange loud e, stage exchange loud → ends loud (.error (.distribution peer e)))
    {c₁ : Cluster} {p : Progress Exchange ReplyBytes} (h : Trades stage ends peer c before (c₁, p)) (t : Ticket)
    {call : Call} (hp : call.peer = peer) (ht : call.target = peer.text) :
    Calls stage ends peer c before (c₁.judge t call p) := by
  have cancelled : ∀ {c' : Cluster}, c'.Sane → Works c' ((c'.cancel t .limit).cancel t .stage) [] := by
    intro c' hs
    have first := Works.cancel hs t .limit
    exact first.after (.cancel first.sane t .stage)
  cases p with
  | ends bytes =>
    obtain ⟨more, works, hends⟩ := h
    refine ⟨more, works.before (cancelled works.sane), ?_⟩
    rw [hp]
    exact hends
  | waits exchange =>
    obtain ⟨more, works, hstage⟩ := h
    unfold judge
    dsimp only
    split
    next =>
      have quiet := works.before (cancelled works.sane)
      refine ⟨more, ?_, ?_⟩
      · split
        next e => exact quiet.before (works_abandon quiet.sane t e)
        next => exact quiet
      · rw [hp]
        exact late exchange _ _ hstage
    next => exact ⟨more, works, hstage, hp, ht⟩

/-- One go at a call, from what its message does when it arrives and from one go at what the peer serves. -/
theorem calls_pollCall (late : ∀ exchange loud e, stage exchange loud → ends loud (.error (.distribution peer e)))
    (t : Ticket) (hs : c.Sane)
    (arrives : ∀ arrival op body, stage (.travelling arrival op body) before →
      Trades stage ends peer c before (c.arrive t peer.text op body))
    (goesOn : ∀ e, stage (.serving e) before → ∀ {c' p}, c.pollErrand t e = (c', p) →
      match p with
      | .waits e' => Trades stage ends peer c before (c', .waits (.serving e'))
      | .ends outcome => Trades stage ends peer c before (c', .ends (encodeReply outcome.reply)))
    {call : Call} (hstage : stage call.exchange before) (hp : call.peer = peer) (ht : call.target = peer.text) :
    Calls stage ends peer c before (c.pollCall t call) := by
  unfold pollCall
  split
  next arrival op body hx =>
    split
    next =>
      have traded := arrives arrival op body (hx ▸ hstage)
      rw [← ht] at traded
      exact calls_judge late traded t hp ht
    next =>
      have still : Trades stage ends peer c before (c, .waits call.exchange) :=
        ⟨[], .refl hs, by rw [List.append_nil]; exact hstage⟩
      exact calls_judge late still t hp ht
  next e hx =>
    split
    next heq => exact calls_judge late (goesOn e (hx ▸ hstage) heq) t hp ht
    next heq => exact calls_judge late (goesOn e (hx ▸ hstage) heq) t hp ht

theorem calls_call (late : ∀ exchange loud e, stage exchange loud → ends loud (.error (.distribution peer e)))
    (lost : ∀ e, ends [] (.error (.distribution peer e))) (t : Ticket) (hs : c.Sane) (n : NodeId)
    {request : Request String}
    (sets : ∀ arrival, stage (.travelling arrival (request.encode .string).1 (request.encode .string).2) [])
    (polls : ∀ call : Call, stage call.exchange [] → call.peer = peer → call.target = peer.text →
      Calls stage ends peer c [] (c.pollCall t call)) :
    Calls stage ends peer c [] (c.call t n peer request) := by
  unfold call
  split
  next => exact ⟨[], .refl hs, lost _⟩
  next h hh =>
    split
    next => exact ⟨[], .refl hs, lost _⟩
    next target hr =>
      obtain rfl := (hs n h hh).book peer target hr
      unfold dial
      split
      next => exact ⟨[], .refl hs, lost _⟩
      next =>
        dsimp only
        -- with no delay the message arrives within the call, else at the next go
        generalize hx : Exchange.travelling _ _ _ = exchange
        have hstage : stage exchange [] := hx ▸ sets _
        have begun : Calls stage ends peer c []
            (if c.net.delay peer.text = 0 then
              c.pollCall t ⟨peer, peer.text, h.timeout, c.now + h.timeout.millis, exchange⟩
            else (c.setTimer t .stage (c.now + c.net.delay peer.text)).judge t
              ⟨peer, peer.text, h.timeout, c.now + h.timeout.millis, exchange⟩ (.waits exchange)) := by
          split
          next => exact polls _ hstage rfl rfl
          next =>
            have set : Trades stage ends peer c [] (c.setTimer t .stage (c.now + c.net.delay peer.text), .waits exchange) :=
              ⟨[], .setTimer hs t .stage _, hstage⟩
            exact calls_judge late set t rfl rfl
        revert begun
        generalize (if c.net.delay peer.text = 0 then _ else _) = r
        obtain ⟨c', p⟩ := r
        intro begun
        cases p with
        | waits call =>
          obtain ⟨more, works, hst, hp, ht⟩ := begun
          exact ⟨more, works.before (.setTimer works.sane t .limit _), hst, hp, ht⟩
        | ends r => exact begun

end Calls

/-- The stage of a call that hands over no work. -/
def IdleStage (exchange : Exchange) (loud : List Event) : Prop :=
  loud = [] ∧ exchange.Harmless

def IdleEnds (loud : List Event) (_ : Except WorkError Reply) : Prop :=
  loud = []

theorem trades_idle (hs : c.Sane) (t : Ticket) (peer : NodeId) {op : UInt16} {body : List UInt8} (hi : Idle op body) :
    Trades IdleStage IdleEnds peer c [] (c.arrive t peer.text op body) := by
  obtain ⟨c', bytes, he, works⟩ := serve_idle hs t ⟨peer.text⟩ hi
  unfold arrive
  rw [he]
  exact ⟨[], works, rfl⟩

theorem pollCall_idle (hs : c.Sane) (t : Ticket) {call : Call} (hx : call.exchange.Harmless)
    (ht : call.target = call.peer.text) : Calls IdleStage IdleEnds call.peer c [] (c.pollCall t call) := by
  refine calls_pollCall (fun _ _ _ h => h.1) t hs ?_ ?_ ⟨rfl, hx⟩ rfl ht
  · intro arrival op body h
    exact trades_idle hs t call.peer h.2
  · intro e h
    exact h.2.elim

theorem call_idle (hs : c.Sane) (t : Ticket) (n peer : NodeId) {request : Request String}
    (hi : Idle (request.encode .string).1 (request.encode .string).2) :
    Calls IdleStage IdleEnds peer c [] (c.call t n peer request) := by
  refine calls_call (fun _ _ _ h => h.1) (fun _ => rfl) t hs n (fun _ => ⟨rfl, hi⟩) ?_
  rintro call ⟨_, hx⟩ rfl ht
  exact pollCall_idle hs t hx ht

section Submission

variable (peer : NodeId) (mode : Mode) (work : Work)

/-- How far a submission to a peer has come: it is on its way, or the executor of the peer has it. -/
inductive SubmitStage : Exchange → List Event → Prop
  | travelling (arrival : Nat) :
      SubmitStage (.travelling arrival (Request.encode .string (.submit mode work)).1
        (Request.encode .string (.submit mode work)).2) []
  | serving {e : Errand} : e.host = peer → e.mode = mode → Arrives mode work e.work → e.Sound →
      SubmitStage (.serving e) [.effect peer (.execute mode e.work)]

/-- How a submission to a peer ends: it never arrived, its answer came too late, or it is back with an answer. -/
inductive SubmitEnds : List Event → Except WorkError Reply → Prop
  | lost (e : ChannelError) : SubmitEnds [] (.error (.distribution peer e))
  | late {v : Work} (e : ChannelError) : Arrives mode work v →
      SubmitEnds [.effect peer (.execute mode v)] (.error (.distribution peer e))
  | back {v : Work} {outcome : Outcome} : Arrives mode work v → outcome.Proper mode →
      SubmitEnds [.effect peer (.execute mode v), .answered peer mode outcome]
        (received peer (encodeReply outcome.reply))

variable {peer mode work}

theorem SubmitStage.late {exchange : Exchange} {loud : List Event} (e : ChannelError)
    (h : SubmitStage peer mode work exchange loud) :
    SubmitEnds peer mode work loud (.error (.distribution peer e)) := by
  cases h with
  | travelling arrival => exact .lost e
  | serving _ _ ha _ => exact .late e ha

theorem received_error {text : String} (h : Fits text) :
    received peer (encodeReply (.error text)) = .error (.distribution peer (.remote text)) := by
  have hd := (ReplyResult.keeps_error h).decode
  unfold received encodeReply
  simp only [hd]

theorem trades_submit (hs : c.Sane) (t : Ticket) :
    Trades (SubmitStage peer mode work) (SubmitEnds peer mode work) peer c []
      (c.arrive t peer.text (Request.encode .string (.submit mode work)).1
        (Request.encode .string (.submit mode work)).2) := by
  unfold arrive serve
  cases hd : Request.decode .string (Request.encode .string (.submit mode work)).1
      (Request.encode .string (.submit mode work)).2 with
  | error e => exact ⟨[], .refl hs, .lost e⟩
  | ok r =>
    obtain ⟨v, rfl⟩ := Request.submit_of_decode hd
    have arrives : Arrives mode work v := hd
    dsimp only
    rw [Request.submission?_submit]
    cases hm : c.manager? ⟨peer.text⟩ with
    | none =>
      have nobody : c.answerNow ⟨peer.text⟩ (.submit mode v) = (c, .error "no work manager attached") := by
        unfold answerNow
        cases mode <;> simp only [Request.submit, manage_none hm]
      dsimp only
      rw [nobody]
      refine ⟨[], .refl hs, ?_⟩
      rw [received_error (by decide)]
      exact .lost _
    | some m =>
      have goes := goes_submitHere hs hm t mode v (.pause 0)
      dsimp only
      revert goes
      generalize c.submitHere t ⟨peer.text⟩ mode v = r
      obtain ⟨c₁, p⟩ := r
      intro goes
      cases p with
      | waits e =>
        obtain ⟨works, hh, hmode, hw, sound⟩ := goes
        obtain rfl : v = e.work := hw.symm
        exact ⟨_, works, .serving hh hmode arrives sound⟩
      | ends outcome =>
        obtain ⟨works, proper⟩ := goes
        exact ⟨_, works, .back arrives proper⟩

theorem pollCall_submit (hs : c.Sane) (t : Ticket) {before : List Event} {call : Call}
    (hstage : SubmitStage peer mode work call.exchange before) (hp : call.peer = peer) (ht : call.target = peer.text) :
    Calls (SubmitStage peer mode work) (SubmitEnds peer mode work) peer c before (c.pollCall t call) := by
  refine calls_pollCall (fun _ _ e h => h.late e) t hs ?_ ?_ hstage hp ht
  · rintro arrival op body ⟨⟩
    exact trades_submit hs t
  · intro e h c' p heq
    cases h with
    | serving hh hm ha sound =>
      have goes := goes_pollErrand hs t sound
      rw [heq] at goes
      cases p with
      | waits e' =>
        obtain ⟨works, hh', hm', hw', sound'⟩ := goes
        have stage : SubmitStage peer mode work (.serving e') [.effect peer (.execute mode e'.work)] :=
          .serving (hh'.trans hh) (hm'.trans hm) (hw' ▸ ha) sound'
        refine ⟨[], works, ?_⟩
        rw [hw'] at stage
        exact stage
      | ends outcome =>
        obtain ⟨works, proper⟩ := goes
        rw [hh, hm] at works
        exact ⟨_, works, .back ha (hm ▸ proper)⟩

theorem call_submit (hs : c.Sane) (t : Ticket) (n : NodeId) :
    Calls (SubmitStage peer mode work) (SubmitEnds peer mode work) peer c []
      (c.call t n peer (.submit mode work)) := by
  refine calls_call (fun _ _ e h => h.late e) (fun e => .lost e) t hs n (fun arrival => .travelling arrival) ?_
  intro call hstage hp ht
  exact pollCall_submit hs t hstage hp ht

end Submission

end Cluster

end Workshare
