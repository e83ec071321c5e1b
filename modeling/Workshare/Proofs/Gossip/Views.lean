import Workshare.Gossip.Socket
import Workshare.Proofs.Gossip.Datagrams
import Workshare.Proofs.Gossip.Suspicions

namespace Workshare.Gossip

/-- What those who send requests see of a member. -/
def Service.contact (m : Member) : NodeId × SocketAddress :=
  (m.id, m.rpcAddr)

namespace Service

theorem sameAddress_iff {a b : Member} : sameAddress a b ↔ contact a = contact b := by
  simp [sameAddress, contact]

/-- Views are compared member by member, which is to compare the lists of contacts. -/
theorem sameView_iff {old new : List Member} : sameView old new ↔ old.map contact = new.map contact := by
  refine ⟨map_eq_of_sameView, fun same => ?_⟩
  induction old generalizing new with
  | nil =>
    rw [List.map_eq_nil_iff.mp same.symm]
    rfl
  | cons a old ih =>
    cases new with
    | nil => cases same
    | cons b new =>
      obtain ⟨first, rest⟩ := List.cons.inj same
      have tail := ih rest
      unfold sameView at tail ⊢
      simp only [Bool.and_eq_true, decide_eq_true_eq, List.length_cons, List.zip_cons_cons, List.all_cons] at tail ⊢
      exact ⟨congrArg Nat.succ tail.1, sameAddress_iff.mpr first, tail.2⟩

/-- Publishing is told of exactly when it changes what is seen. -/
theorem published_iff (s : Service) : s.publish.2 ↔ s.publish.1.requestView ≠ s.requestView := by
  rw [requestView_publish]
  unfold publish
  split
  next same =>
    have equal : s.requestView = s.alive.map contact := map_eq_of_sameView same
    exact iff_of_false Bool.false_ne_true fun differ => differ equal.symm
  next news => exact iff_of_true rfl fun equal => news (sameView_iff.mpr equal.symm)

theorem view_update (s : Service) (n : NodeId) (f : Known → Known) : (s.update n f).view = s.view := by
  unfold update
  split <;> rfl

theorem view_merge (now : Nat) (s : Service) (m : Member) : (merge now s m).view = s.view := by
  unfold merge
  split
  next => rfl
  next =>
    split
    next => exact view_update s _ _
    next => rfl

theorem view_foldl_merge (now : Nat) (ms : List Member) (s : Service) : (ms.foldl (merge now) s).view = s.view := by
  induction ms generalizing s with
  | nil => rfl
  | cons m ms ih => exact (ih (merge now s m)).trans (view_merge now s m)

theorem view_onPing (s : Service) (now : Nat) (src : SocketAddress) (sender : NodeId) (rpc : SocketAddress) (i : UInt64) :
    (s.onPing now src sender rpc i).1.view = s.view := by
  unfold onPing
  dsimp only
  split
  next => exact view_update s _ _
  next => rfl

theorem view_refute {s t : Service} {i : UInt64} {letters : List Letter} (h : s.refute i = .ok (t, letters)) :
    t.view = s.view := by
  unfold refute at h
  split at h
  next => cases h; rfl
  next =>
    split at h
    next => cases h; rfl
    next => cases h

theorem view_handle {s t : Service} {now : Nat} {src : SocketAddress} {m : GossipMessage} {letters : List Letter}
    (h : s.handle now src m = .ok (t, letters)) : t.view = s.view := by
  cases m with
  | ping sender rpc i => cases h; exact view_onPing s now src sender rpc i
  | ack sender i ms => cases h; exact (view_foldl_merge now ms _).trans (view_update s _ _)
  | join node => cases h; rfl
  | leave node => cases h; exact view_update s _ _
  | suspect node i =>
    simp only [handle] at h
    split at h
    next => exact view_refute h
    next => cases h; exact view_update s _ _
  | alive node i => cases h; exact view_update s _ _

/-- Whatever happens, the view is published once, after everything else. -/
theorem after_view {s : Service} {o : Occurrence} {step : Step} (h : s.after o = .ok step) :
    ∃ t : Service, t.view = s.view ∧ step.service = t.publish.1 ∧ step.published = t.publish.2 := by
  cases o with
  | looks now =>
    cases h
    exact ⟨s.judged now, rfl, rfl, rfl⟩
  | hears now src m =>
    rw [after, receive_eq] at h
    obtain ⟨r, handled, rfl⟩ := Except.exists_of_map h
    exact ⟨r.1, view_handle handled, rfl, rfl⟩

/-- A step is told of exactly when it changes what is seen. -/
theorem told_iff {s : Service} {o : Occurrence} {step : Step} (h : s.after o = .ok step) :
    step.published ↔ step.service.requestView ≠ s.requestView := by
  obtain ⟨t, view, service, published⟩ := after_view h
  rw [service, published, published_iff, requestView, requestView, requestView, view]

/-- The view is the list of the members that are alive, in the order of their ids. -/
structure ListsAlive (s : Service) : Prop where
  exact : ∀ n a, (n, a) ∈ s.requestView ↔
    ∃ k, s.get? n = some k ∧ k.member.state = .alive ∧ k.member.rpcAddr = a
  ascending : (s.requestView.map (·.1)).Pairwise (· < ·)

theorem Shown.listsAlive {s : Service} (h : s.Shown) : s.ListsAlive := by
  refine ⟨fun n a => by rw [h.shown, mem_alive h.keyed], ?_⟩
  have ids : s.requestView.map (·.1) = s.alive.map (·.id) := by
    rw [h.shown, List.map_map]
    rfl
  have sub : (s.alive.map (·.id)).Sublist s.members.keys := by
    rw [← ids_all h.keyed]
    exact List.filter_sublist.map _
  rw [ids]
  exact s.members.keys_sorted.sublist sub

/-- What comes to a service, on a socket that may refuse letters. The fault ends the handling of a message. -/
def takesOn (faults : Faults) (s : Service) : Input → Except Abort (Step × Option String)
  | .datagram now src bytes => s.receiveOn faults now src bytes
  | .timer now => .ok (s.detectOn faults now, none)

/-- Each input with what the socket has to say against the letters of its step. -/
def serveOn (s : Service) (inputs : List (Input × Faults)) : Except Abort Service :=
  inputs.foldlM (fun s input => (s.takesOn input.2 input.1).map (·.1.service)) s

/-- A socket keeps letters back and does nothing else to a step. -/
theorem takesOn_eq (faults : Faults) (s : Service) (input : Input) :
    (s.takesOn faults input).map (·.1) =
      (s.takes input).map fun step => { step with letters := faults.passed step.letters } := by
  cases input with
  | timer now => rfl
  | datagram now src bytes =>
    unfold takesOn takes receiveOn receiveBytes
    dsimp only
    cases GossipMessage.codec.decode bytes with
    | error f => rfl
    | ok m =>
      dsimp only
      rw [receive_eq]
      unfold handleOn
      cases s.handle now src m <;> rfl

theorem takesOn_ok {faults : Faults} {s : Service} {input : Input} {step : Step} {fault : Option String}
    (h : s.takesOn faults input = .ok (step, fault)) :
    ∃ taken, s.takes input = .ok taken ∧ step = { taken with letters := faults.passed taken.letters } := by
  have same := takesOn_eq faults s input
  rw [h] at same
  obtain ⟨taken, takes, letters⟩ := Except.exists_of_map same.symm
  exact ⟨taken, takes, letters.symm⟩

theorem takesOn_harmless (faults : Faults) {s : Service} {input : Input} (h : ¬ input.Fatal s.self.id) :
    ∃ step fault, s.takesOn faults input = .ok (step, fault) := by
  obtain ⟨taken, ht⟩ := takes_harmless h
  have same := takesOn_eq faults s input
  rw [ht] at same
  obtain ⟨p, takes, _⟩ := Except.exists_of_map same
  exact ⟨p.1, p.2, takes⟩

/-- The members do not depend on the socket. -/
theorem serveOn_eq (s : Service) (inputs : List (Input × Faults)) :
    s.serveOn inputs = s.serve (inputs.map (·.1)) := by
  have single (s : Service) (input : Input × Faults) :
      (s.takesOn input.2 input.1).map (·.1.service) = (s.takes input.1).map (·.service) := by
    have through : (s.takesOn input.2 input.1).map (·.1.service) =
        ((s.takesOn input.2 input.1).map (·.1)).map (·.service) := by
      cases s.takesOn input.2 input.1 <;> rfl
    rw [through, takesOn_eq]
    cases s.takes input.1 <;> rfl
  unfold serveOn serve
  rw [List.foldlM_map]
  exact congrArg (fun f => inputs.foldlM f s) (funext fun s => funext fun input => single s input)

/-- The step of an input lists the members that are alive, and is told of exactly when the list has changed. -/
theorem takes_listsAlive {s : Service} (hs : s.Shown) {input : Input} {step : Step} (h : s.takes input = .ok step) :
    step.service.ListsAlive ∧ (step.published ↔ step.service.requestView ≠ s.requestView) := by
  rw [takes_eq] at h
  cases ho : input.occurrence? with
  | none =>
    rw [ho] at h
    cases h
    exact ⟨hs.listsAlive, iff_of_false Bool.false_ne_true fun differ => differ rfl⟩
  | some o =>
    rw [ho] at h
    exact ⟨(hs.after h).listsAlive, told_iff h⟩

/-- From the start, and after each datagram and each look at the members, the published view is the list of the
members that are alive, in ascending order of their ids; and subscribers are told of a step exactly when it
changes the list. No step is missing but that of a fatal datagram, and what the socket refuses makes no
difference, not even the answer to a ping, with which the handling of the ping ends. -/
theorem view_lists_alive (id : NodeId) (gossipAddr rpcAddr : SocketAddress) (begun : Nat)
    (inputs : List (Input × Faults)) :
    ((∃ s, (start id gossipAddr rpcAddr begun).serveOn inputs = .ok s) ↔ ∀ input ∈ inputs, ¬ input.1.Fatal id) ∧
    ∀ s, (start id gossipAddr rpcAddr begun).serveOn inputs = .ok s → s.ListsAlive ∧
      ∀ input faults,
        (¬ input.Fatal id → ∃ step fault, s.takesOn faults input = .ok (step, fault)) ∧
        ∀ step fault, s.takesOn faults input = .ok (step, fault) →
          step.service.ListsAlive ∧ (step.published ↔ step.service.requestView ≠ s.requestView) := by
  rw [serveOn_eq]
  constructor
  · rw [serve_isOk]
    exact List.forall_mem_map
  · intro s hs
    rw [serve_eq_run] at hs
    have shown : s.Shown := (Shown.start id gossipAddr rpcAddr begun).run hs
    have self : s.self.id = id := congrArg Member.id (self_run hs)
    subst self
    refine ⟨shown.listsAlive, fun input faults => ⟨takesOn_harmless faults, fun step fault h => ?_⟩⟩
    obtain ⟨taken, ht, rfl⟩ := takesOn_ok h
    obtain ⟨lists, told⟩ := takes_listsAlive shown ht
    exact ⟨lists, told⟩

def stranger : Input :=
  .datagram 2 (.v4 2 7946) (GossipMessage.codec.write (.ping ⟨"b"⟩ (.v4 2 7947) 1))

def down : Faults :=
  fun _ => some "Network is unreachable"

theorem view_lists_alive_unanswered :
    ∃ s step, (start ⟨"a"⟩ (.v4 1 7946) (.v4 1 7947) 0).serveOn [(.timer 1, down)] = .ok s ∧
      s.takesOn down stranger = .ok (step, some "Network is unreachable") ∧ step.letters = [] ∧
      step.service.ListsAlive ∧ (⟨"b"⟩, .v4 2 7947) ∈ step.service.requestView ∧ step.published := by
  obtain ⟨served, lists⟩ := view_lists_alive ⟨"a"⟩ (.v4 1 7946) (.v4 1 7947) 0 [(.timer 1, down)]
  obtain ⟨s, hs⟩ := served.mpr (by decide)
  have read : GossipMessage.codec.decode (GossipMessage.codec.write (.ping ⟨"b"⟩ (.v4 2 7947) 1)) =
      .ok (.ping ⟨"b"⟩ (.v4 2 7947) 1) :=
    GossipMessage.decode_write (m := .ping ⟨"b"⟩ (.v4 2 7947) 1) (by decide)
  obtain ⟨step, taken, silent, known⟩ : ∃ step, s.takesOn down stranger = .ok (step, some "Network is unreachable") ∧
      step.letters = [] ∧ step.service.get? ⟨"b"⟩ = some ⟨⟨⟨"b"⟩, .v4 2 7946, .v4 2 7947, .alive, 1⟩, some 2⟩ := by
    cases hs
    rw [stranger, takesOn, receiveOn, read]
    exact ⟨_, rfl, rfl, rfl⟩
  obtain ⟨before, after⟩ := lists s hs
  obtain ⟨listed, told⟩ := (after stranger down).2 step _ taken
  have shown : (⟨"b"⟩, .v4 2 7947) ∈ step.service.requestView := (listed.exact _ _).mpr ⟨_, known, rfl, rfl⟩
  have fresh : (⟨"b"⟩, .v4 2 7947) ∉ s.requestView := by
    rw [before.exact]
    rintro ⟨k, hk, _⟩
    cases hs
    cases hk
  exact ⟨s, step, hs, taken, silent, listed, shown, told.mpr fun same => fresh (same ▸ shown)⟩

end Service

end Workshare.Gossip
