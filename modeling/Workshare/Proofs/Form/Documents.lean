import Workshare.Form.Gossip
import Workshare.Form.Settings
import Workshare.Http.Body
import Workshare.Proofs.Form.Shapes

namespace Workshare

open Json

theorem NodeId.keeps_form (n : NodeId) (depth : Nat) : NodeId.form.Keeps depth n :=
  (Form.keeps_text n.text depth).imap rfl

theorem WorkId.keeps_form (n : WorkId) (depth : Nat) : WorkId.form.Keeps depth n :=
  (Form.keeps_text n.text depth).imap rfl

theorem Work.keeps_form (fresh : WorkId) {w : Work} {depth : Nat} (deep : depth < maxDepth)
    (h : w.payload.Portable (depth + 1)) : (Work.form fresh).Keeps depth w := by
  have names : ["id", "handler", "payload", "distributable", "long_running"].Nodup := by decide
  refine ⟨takes_record deep names ?_, rfl⟩
  exact .given (WorkId.keeps_form w.id _).1 <| .given (Form.keeps_text w.handler _).1 <|
    .given (Form.keeps_anything h).1 <| .given (Form.keeps_flag w.distributable _).1 <|
    .given (Form.keeps_flag w.longRunning _).1 .nil

theorem Work.holds_payload (fresh : WorkId) : ∀ f ∈ [WorkId.form.fieldOr "id" fresh, Form.text.field "handler",
    Form.anything.fieldOr "payload" .null, Form.flag.fieldOr "distributable" false,
    Form.flag.fieldOr "long_running" false],
      Field.Holds 1 (fun name v => name = "payload" → v.Normal 1) f := by
  have other : ∀ {name shape default}, name ≠ "payload" →
      Field.Holds 1 (fun name v => name = "payload" → v.Normal 1) (name, shape, default) :=
    fun hn => ⟨fun _ _ h => absurd h hn, fun _ _ h => absurd h hn⟩
  simp only [List.forall_mem_cons]
  refine ⟨other (by decide), other (by decide), ⟨?_, ?_⟩, other (by decide), other (by decide), by simp⟩
  · rintro d ⟨⟩ _
    trivial
  · intro raw v sound read _
    have value : raw.value 1 = .ok v := read_anything 1 raw ▸ read
    exact normal_value sound value

/-- The payload of a work that was read from a document is in normal form, inside the brackets of the work. -/
theorem Work.normal_payload {fresh : WorkId} {text : List Char} {v : Value} {w : Work}
    (read : (Work.form fresh).shape.read 0 (Raw.read text).1 = .ok v) (made : (Work.form fresh).ofValue? v = some w) :
    w.payload.Normal 1 := by
  obtain ⟨ms, rfl, held⟩ := holds_record (Work.holds_payload fresh) (sound_read text) read
  simp only [Work.form, Option.bind_eq_bind, Option.bind_eq_some_iff] at made
  obtain ⟨id, _, handler, _, payload, found, _, _, _, _, made⟩ := made
  cases made
  obtain ⟨e, he, rfl⟩ := Option.map_eq_some_iff.mp found
  exact held e (List.mem_of_find?_eq_some he) (by simpa using List.find?_some he)

/-- An address whose text is read as that address. -/
def SocketAddress.Legible (a : SocketAddress) : Prop :=
  SocketAddress.read? a.text = some a

theorem SocketAddress.keeps_form {a : SocketAddress} (h : a.Legible) (depth : Nat) : SocketAddress.form.Keeps depth a := by
  have accepted : (SocketAddress.read? a.text).isSome := by rw [show SocketAddress.read? a.text = some a from h]; rfl
  refine ⟨⟨trivial, ?_⟩, h⟩
  show (if (SocketAddress.read? a.text).isSome then .ok (.str a.text) else .error .data : Except Fault Value) = .ok (.str a.text)
  exact if_pos accepted

theorem MemberState.keeps_form (s : MemberState) (depth : Nat) : MemberState.form.Keeps depth s := by
  cases s <;> exact ⟨takes_bare rfl, rfl⟩

def Member.Legible (m : Member) : Prop :=
  m.gossipAddr.Legible ∧ m.rpcAddr.Legible

theorem Member.keeps_form {m : Member} (h : m.Legible) {depth : Nat} (deep : depth < maxDepth) :
    Member.form.Keeps depth m := by
  have id := NodeId.keeps_form m.id (depth + 1)
  have gossip := SocketAddress.keeps_form h.1 (depth + 1)
  have rpc := SocketAddress.keeps_form h.2 (depth + 1)
  have state := MemberState.keeps_form m.state (depth + 1)
  have incarnation := Form.keeps_count m.incarnation (depth + 1)
  refine ⟨takes_record deep (by decide) ?_, ?_⟩
  · exact .given id.1 <| .given gossip.1 <| .given rpc.1 <| .given state.1 <| .given incarnation.1 .nil
  · simp [Member.form, Form.get?, Value.member?, id.2, gossip.2, rpc.2, state.2, incarnation.2]

namespace GossipMessage

/-- Every address in a message is read from its text. -/
def Legible : GossipMessage → Prop
  | .ping _ rpc _ => rpc.Legible
  | .ack _ _ ms => ∀ m ∈ ms, m.Legible
  | .join node => node.Legible
  | _ => True

theorem takes_rumour (node : NodeId) (i : UInt64) {depth : Nat} (deep : depth < maxDepth) :
    Shape.Takes (.record rumourFields) depth (rumour node i) (rumour node i) :=
  takes_record deep (by decide) (.given (NodeId.keeps_form node _).1 (.given (Form.keeps_count i _).1 .nil))

theorem keeps_form {m : GossipMessage} (h : m.Legible) : form.Keeps 0 m := by
  have deep : 0 < maxDepth := by decide
  have deeper : 1 < maxDepth := by decide
  cases m with
  | ping sender rpc i =>
    have id := NodeId.keeps_form sender 2
    have address := SocketAddress.keeps_form h 2
    have count := Form.keeps_count i 2
    have body : Shape.Takes (.record pingFields) 1 _ _ :=
      takes_record deeper (by decide) (.given id.1 (.given address.1 (.given count.1 .nil)))
    refine ⟨takes_case deep rfl body, ?_⟩
    simp [form, Form.get?, Value.member?, id.2, address.2, count.2]
  | ack sender i ms =>
    have id := NodeId.keeps_form sender 2
    have count := Form.keeps_count i 2
    have members : Member.form.list.Keeps 2 ms := Form.keeps_list (by decide) fun m hm => Member.keeps_form (h m hm) (by decide)
    have body : Shape.Takes (.record ackFields) 1 _ _ :=
      takes_record deeper (by decide) (.given id.1 (.given count.1 (.given members.1 .nil)))
    refine ⟨takes_case deep rfl body, ?_⟩
    simp [form, Form.get?, Value.member?, id.2, count.2, members.2]
  | join node =>
    have member : Member.form.Keeps 2 node := Member.keeps_form h (by decide)
    have body : Shape.Takes (.record [Member.form.field "node"]) 1 _ _ :=
      takes_record deeper (by decide) (.given member.1 .nil)
    refine ⟨takes_case deep rfl body, ?_⟩
    simp [form, Form.get?, Value.member?, member.2]
  | leave node =>
    have id := NodeId.keeps_form node 2
    have body : Shape.Takes (.record [NodeId.form.field "node_id"]) 1 _ _ :=
      takes_record deeper (by decide) (.given id.1 .nil)
    refine ⟨takes_case deep rfl body, ?_⟩
    simp [form, Form.get?, Value.member?, id.2]
  | suspect node i =>
    have id := NodeId.keeps_form node 2
    have count := Form.keeps_count i 2
    refine ⟨takes_case deep rfl (takes_rumour node i deeper), ?_⟩
    simp [form, rumour, Form.get?, Value.member?, id.2, count.2]
  | alive node i =>
    have id := NodeId.keeps_form node 2
    have count := Form.keeps_count i 2
    refine ⟨takes_case deep rfl (takes_rumour node i deeper), ?_⟩
    simp [form, rumour, Form.get?, Value.member?, id.2, count.2]

end GossipMessage

theorem Counter.keeps_form (c : Counter) (depth : Nat) : Counter.form.Keeps depth c := by
  cases c <;> exact ⟨takes_bare rfl, rfl⟩

theorem Tally.ofFn?_get {α : Type} {f : Counter → Option α} {t : Tally α} (h : ∀ c, f c = some (t.get c)) :
    Tally.ofFn? f = some t := by
  unfold ofFn?
  simp only [h]
  rfl

theorem Tally.keeps_form (t : Tally UInt64) {depth : Nat} (deep : depth < maxDepth) : Tally.form.Keeps depth t := by
  have count : ∀ c, Form.count.Keeps (depth + 1) (t.get c) := fun c => Form.keeps_count (t.get c) _
  have fills : ∀ cs : List Counter, Fills (depth + 1) (cs.map fun c => Form.count.field c.fieldName)
      (cs.map fun c => (c.fieldName, Form.count.toValue (t.get c)))
      (cs.map fun c => (c.fieldName, Form.count.toValue (t.get c))) := by
    intro cs
    induction cs with
    | nil => exact .nil
    | cons c cs ih => exact .given (count c).1 ih
  have back : ∀ c, Form.count.get? (Tally.form.toValue t) c.fieldName = some (t.get c) := by
    intro c
    cases c <;> exact (count _).2
  exact ⟨takes_record deep (by decide) (fills Counter.all), Tally.ofFn?_get back⟩

theorem Reply.keeps_form (r : Reply) : Reply.form.Keeps 0 r := by
  cases r with
  | done => exact ⟨takes_bare rfl, rfl⟩
  | value n =>
    have count := Form.keeps_count n 1
    refine ⟨takes_case (by decide) rfl count.1, ?_⟩
    simp [Reply.form, count.2]

theorem CapacityEntry.keeps_form (e : CapacityEntry) {depth : Nat} (deep : depth < maxDepth) :
    CapacityEntry.form.Keeps depth e := by
  have node := NodeId.keeps_form e.node (depth + 1)
  have short := Form.keeps_count e.free.short (depth + 1)
  have long := Form.keeps_count e.free.long (depth + 1)
  refine ⟨takes_record deep (by decide) (.given node.1 (.given short.1 (.given long.1 .nil))), ?_⟩
  simp [CapacityEntry.form, Form.get?, Value.member?, node.2, short.2, long.2]

/-- A whole number of milliseconds, of 64 bits. -/
def Duration.Whole (d : Duration) : Prop :=
  ∃ n : UInt64, d = .ofMillis n.toNat

theorem Duration.keeps_form {d : Duration} (h : d.Whole) (depth : Nat) : Duration.form.Keeps depth d := by
  obtain ⟨n, rfl⟩ := h
  have millis : (Duration.ofMillis n.toNat).millis.toUInt64 = n := by
    unfold millis ofMillis
    rw [Nat.mul_div_cancel _ (by decide)]
    simp
  refine (Form.keeps_count _ depth).imap ?_
  show Duration.ofMillis ((Duration.ofMillis n.toNat).millis.toUInt64).toNat = _
  rw [millis]

theorem Duration.whole_of_form {v : Value} {d : Duration} (h : Duration.form.ofValue? v = some d) : d.Whole := by
  obtain ⟨n, _, rfl⟩ := Option.map_eq_some_iff.mp h
  exact ⟨n, rfl⟩

theorem Duration.whole_of_get? {v : Value} {name : String} {d : Duration} (h : Duration.form.get? v name = some d) : d.Whole := by
  obtain ⟨w, _, made⟩ := Option.bind_eq_some_iff.mp h
  exact whole_of_form made

theorem ManagerSettings.keeps_form {s : ManagerSettings} (h : s.requestTimeout.Whole) : ManagerSettings.form.Keeps 0 s := by
  have enabled := Form.keeps_flag s.statisticsEnabled 1
  have timeout := Duration.keeps_form h 1
  refine ⟨takes_record (by decide) (by decide) (.given enabled.1 (.given timeout.1 .nil)), ?_⟩
  simp [ManagerSettings.form, Form.flag, Form.get?, Value.member?, timeout.2]

theorem ManagerSettings.whole_of_form {v : Value} {s : ManagerSettings} (h : ManagerSettings.form.ofValue? v = some s) :
    s.requestTimeout.Whole := by
  simp only [ManagerSettings.form, Option.bind_eq_bind, Option.bind_eq_some_iff] at h
  obtain ⟨_, _, timeout, got, made⟩ := h
  cases made
  exact Duration.whole_of_get? got

theorem PoolSettings.keeps_form {s : PoolSettings} (h : s.startTimeout.Whole) : PoolSettings.form.Keeps 0 s := by
  have short := Form.keeps_count s.shortThreads 1
  have long := Form.keeps_count s.longThreads 1
  have timeout := Duration.keeps_form h 1
  refine ⟨takes_record (by decide) (by decide) (.given short.1 (.given long.1 (.given timeout.1 .nil))), ?_⟩
  simp [PoolSettings.form, Form.get?, Value.member?, short.2, long.2, timeout.2]

theorem PoolSettings.whole_of_form {v : Value} {s : PoolSettings} (h : PoolSettings.form.ofValue? v = some s) :
    s.startTimeout.Whole := by
  simp only [PoolSettings.form, Option.bind_eq_bind, Option.bind_eq_some_iff] at h
  obtain ⟨_, _, _, _, timeout, got, made⟩ := h
  cases made
  exact Duration.whole_of_get? got

theorem PolicyChoice.keeps_form (p : PolicyChoice) : PolicyChoice.form.Keeps 0 p := by
  cases p with
  | always => exact ⟨takes_bare rfl, rfl⟩
  | never => exact ⟨takes_bare rfl, rfl⟩
  | waterMark level =>
    have count := Form.keeps_count level 1
    refine ⟨takes_case (by decide) rfl count.1, ?_⟩
    simp [PolicyChoice.form, count.2]

theorem SelectorChoice.keeps_form (s : SelectorChoice) : SelectorChoice.form.Keeps 0 s := by
  cases s <;> exact ⟨takes_bare rfl, rfl⟩

namespace Http

theorem fills_outcome (name : String) (n : Option UInt64) (error : Option String) :
    Fills 1 [Form.optionalField .count name, Form.optionalField .text "error"]
      (Form.count.optionalMember name n ++ Form.text.optionalMember "error" error)
      [(name, Form.count.optionalValue n), ("error", Form.text.optionalValue error)] := by
  have last : Fills 1 [Form.optionalField .text "error"] (Form.text.optionalMember "error" error ++ [])
      [("error", Form.text.optionalValue error)] := .optional rfl (fun t _ => Form.keeps_text t 1) .nil
  rw [List.append_nil] at last
  exact .optional rfl (fun n _ => Form.keeps_count n 1) last

theorem got_number {v : Value} {name : String} (n : Option UInt64) (found : v.member? name = some (Form.count.optionalValue n)) :
    Form.count.getOptional? v name = some n :=
  Form.getOptional?_optionalValue found fun n _ => ⟨Form.keeps_count n 0, nofun⟩

theorem got_error {v : Value} (error : Option String) (found : v.member? "error" = some (Form.text.optionalValue error)) :
    Form.text.getOptional? v "error" = some error :=
  Form.getOptional?_optionalValue found fun t _ => ⟨Form.keeps_text t 0, nofun⟩

theorem Submitted.returns_form (s : Submitted) : Submitted.form.Returns 0 s := by
  have id := WorkId.keeps_form s.workId 1
  have accepted := Form.keeps_flag s.accepted 1
  refine ⟨_, takes_record (by decide) (by decide)
    (.given id.1 (.given accepted.1 (fills_outcome "start_delay_ms" s.startDelay s.error))), ?_⟩
  simp only [Submitted.form]
  rw [got_number s.startDelay, got_error s.error]
  · rfl
  · rfl
  · rfl

theorem NodeStatistics.keeps_form (s : NodeStatistics) {depth : Nat} (deep : depth + 1 < maxDepth) :
    NodeStatistics.form.Keeps depth s := by
  have node := NodeId.keeps_form s.node (depth + 1)
  have counters := Tally.keeps_form s.counters deep
  refine ⟨takes_record (by omega) (by decide) (.given node.1 (.given counters.1 .nil)), ?_⟩
  simp [NodeStatistics.form, Form.get?, Value.member?, node.2, counters.2]

theorem StatisticsBody.keeps_form (b : StatisticsBody) : StatisticsBody.form.Keeps 0 b := by
  have node := NodeId.keeps_form b.localNode 1
  have enabled := Form.keeps_flag b.replicationEnabled 1
  have aggregate : Tally.form.Keeps 1 b.aggregate := Tally.keeps_form b.aggregate (by decide)
  have nodes : NodeStatistics.form.list.Keeps 1 b.nodes :=
    Form.keeps_list (by decide) fun s _ => NodeStatistics.keeps_form s (by decide)
  refine ⟨takes_record (by decide) (by decide)
    (.given node.1 (.given enabled.1 (.given aggregate.1 (.given nodes.1 .nil)))), ?_⟩
  simp [StatisticsBody.form, Form.flag, Form.get?, Value.member?, node.2, aggregate.2, nodes.2]

theorem CapacityBody.keeps_form (b : CapacityBody) : CapacityBody.form.Keeps 0 b := by
  have entries : CapacityEntry.form.list.Keeps 1 b.entries :=
    Form.keeps_list (by decide) fun e _ => CapacityEntry.keeps_form e (by decide)
  refine ⟨takes_record (by decide) (by decide) (.given entries.1 .nil), ?_⟩
  simp [CapacityBody.form, Form.get?, Value.member?, entries.2]

theorem MembersBody.keeps_form (b : MembersBody) : MembersBody.form.Keeps 0 b := by
  have node := NodeId.keeps_form b.localNode 1
  have members : NodeId.form.list.Keeps 1 b.members := Form.keeps_list (by decide) fun n _ => NodeId.keeps_form n 2
  refine ⟨takes_record (by decide) (by decide) (.given node.1 (.given members.1 .nil)), ?_⟩
  simp [MembersBody.form, Form.get?, Value.member?, node.2, members.2]

theorem Pinged.returns_form (p : Pinged) : Pinged.form.Returns 0 p := by
  have node := NodeId.keeps_form p.node 1
  refine ⟨_, takes_record (by decide) (by decide) (.given node.1 (fills_outcome "rtt_micros" p.roundTrip p.error)), ?_⟩
  simp only [Pinged.form]
  rw [got_number p.roundTrip, got_error p.error]
  · rfl
  · rfl
  · rfl

end Http

/-- An accepted work has a payload of at most 126 brackets; it has doubles in it only if the text had. -/
theorem Work.faithful_form (fresh fresh' : WorkId) :
    Form.Faithful (Work.form fresh) (Work.form fresh') (fun w => w.payload.Portable 1)
      fun w => w.payload.Reals fun _ => False := by
  refine .of rfl (fun w h => (Work.keeps_form fresh' (by decide) h).returns) ?_
  intro text w read plain
  obtain ⟨v, read, made⟩ := Form.document_of_read read
  exact Value.portable_iff.mpr ⟨Work.normal_payload read made, plain⟩

theorem ManagerSettings.faithful_form : ManagerSettings.form.Faithful ManagerSettings.form
    (fun s => s.requestTimeout.Whole) fun _ => True := by
  refine .of rfl (fun s h => (ManagerSettings.keeps_form h).returns) ?_
  intro text s read _
  obtain ⟨v, _, made⟩ := Form.document_of_read read
  exact ManagerSettings.whole_of_form made

theorem PoolSettings.faithful_form : PoolSettings.form.Faithful PoolSettings.form
    (fun s => s.startTimeout.Whole) fun _ => True := by
  refine .of rfl (fun s h => (PoolSettings.keeps_form h).returns) ?_
  intro text s read _
  obtain ⟨v, _, made⟩ := Form.document_of_read read
  exact PoolSettings.whole_of_form made

theorem documents_faithful :
    (∀ fresh fresh', Form.Faithful (Work.form fresh) (Work.form fresh') (fun w => w.payload.Portable 1)
      fun w => w.payload.Reals fun _ => False) ∧
    Member.form.Faithful Member.form Member.Legible Member.Legible ∧
    GossipMessage.form.Faithful GossipMessage.form GossipMessage.Legible GossipMessage.Legible ∧
    ManagerSettings.form.Faithful ManagerSettings.form (fun s => s.requestTimeout.Whole) (fun _ => True) ∧
    PoolSettings.form.Faithful PoolSettings.form (fun s => s.startTimeout.Whole) (fun _ => True) ∧
    WorkId.form.Settled ∧ NodeId.form.Settled ∧ MemberState.form.Settled ∧ Counter.form.Settled ∧ Reply.form.Settled ∧
    PolicyChoice.form.Settled ∧ SelectorChoice.form.Settled ∧ CapacityEntry.form.Settled ∧ Tally.form.Settled ∧
    Http.Submitted.form.Settled ∧ Http.NodeStatistics.form.Settled ∧ Http.StatisticsBody.form.Settled ∧
    Http.CapacityBody.form.Settled ∧ Http.MembersBody.form.Settled ∧ Http.Pinged.form.Settled := by
  have bracket : 0 < maxDepth := by decide
  refine ⟨Work.faithful_form, ?_, ?_, ManagerSettings.faithful_form, PoolSettings.faithful_form, ?_⟩
  · exact .of rfl (fun m h => (Member.keeps_form h bracket).returns) fun _ _ _ h => h
  · exact .of rfl (fun m h => (GossipMessage.keeps_form h).returns) fun _ _ _ h => h
  exact ⟨.of_keeps (WorkId.keeps_form · 0), .of_keeps (NodeId.keeps_form · 0), .of_keeps (MemberState.keeps_form · 0),
    .of_keeps (Counter.keeps_form · 0), .of_keeps Reply.keeps_form, .of_keeps PolicyChoice.keeps_form,
    .of_keeps SelectorChoice.keeps_form, .of_keeps (CapacityEntry.keeps_form · bracket),
    .of_keeps (Tally.keeps_form · bracket), .of_returns Http.Submitted.returns_form,
    .of_keeps (Http.NodeStatistics.keeps_form · (by decide)), .of_keeps Http.StatisticsBody.keeps_form,
    .of_keeps Http.CapacityBody.keeps_form, .of_keeps Http.MembersBody.keeps_form, .of_returns Http.Pinged.returns_form⟩

theorem documents_faithful_spelled :
    let w : Work := ⟨⟨"w"⟩, "say \"hé\"\n", .obj [("a", .arr [.int (-1), .null])], true, false⟩
    let m : Member := ⟨⟨"n"⟩, .v4 2130706433 7946, .v6 1 7947 0 0, .suspect, 3⟩
    let s : ManagerSettings := ⟨false, .ofMillis 10000⟩
    (Work.form ⟨"y"⟩).read ((Work.form ⟨"x"⟩).print w) = .ok w ∧
      Member.form.read (Member.form.print m) = .ok m ∧
      ManagerSettings.form.read "[false]" = .ok s ∧ ManagerSettings.form.read (ManagerSettings.form.print s) = .ok s := by
  intro w m s
  obtain ⟨works, members, _, settings, _⟩ := documents_faithful
  have portable : w.payload.Portable 1 := by
    refine ⟨by decide, List.pairwise_singleton _ _, ⟨by decide, ⟨by decide, by decide⟩, trivial, trivial⟩, trivial⟩
  have gossip : SocketAddress.read? m.gossipAddr.text = some m.gossipAddr := by decide +kernel
  have rpc : SocketAddress.read? m.rpcAddr.text = some m.rpcAddr := by decide +kernel
  have accepted : ManagerSettings.form.read "[false]" = .ok s := by rfl
  exact ⟨(works ⟨"x"⟩ ⟨"y"⟩).back w portable, members.back m ⟨gossip, rpc⟩, accepted,
    (settings.settled "[false]" s accepted trivial).1⟩

end Workshare
