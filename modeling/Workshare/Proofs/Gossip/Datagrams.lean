import Workshare.Proofs.Gossip.Records
import Workshare.Proofs.Wire.Gossip

namespace Workshare.Gossip

/-- What comes to a service from outside: a datagram, or the time to look at the members. -/
inductive Input
  | datagram (now : Nat) (src : SocketAddress) (bytes : List UInt8)
  | timer (now : Nat)

/-- What a service makes of it. Bytes that are no message are nothing to it. -/
def Input.occurrence? : Input → Option Occurrence
  | .datagram now src bytes => (GossipMessage.codec.decode bytes).toOption.map (.hears now src)
  | .timer now => some (.looks now)

/-- The suspicion that leaves no incarnation to refute it with. -/
def lastWord (self : NodeId) : GossipMessage :=
  .suspect self 0xFFFFFFFFFFFFFFFF

/-- A datagram that begins with the last word. -/
def Input.Fatal (self : NodeId) : Input → Prop
  | .datagram _ _ bytes => Fits self.text ∧ GossipMessage.codec.write (lastWord self) <+: bytes
  | .timer _ => False

instance (self : NodeId) : (input : Input) → Decidable (input.Fatal self)
  | .datagram _ _ _ => inferInstanceAs (Decidable (_ ∧ _))
  | .timer _ => inferInstanceAs (Decidable False)

namespace Service

def takes (s : Service) : Input → Except Abort Step
  | .datagram now src bytes => s.receiveBytes now src bytes
  | .timer now => .ok (s.detect now)

def serve (s : Service) (inputs : List Input) : Except Abort Service :=
  inputs.foldlM (fun s input => (s.takes input).map (·.service)) s

theorem refute_last (s : Service) : s.refute 0xFFFFFFFFFFFFFFFF = .error .sumOverflow := by
  have top : ¬ (0xFFFFFFFFFFFFFFFF : UInt64) < s.incarnation := by
    have := s.incarnation.toNat_lt
    rw [UInt64.lt_iff_toNat_lt]
    show ¬ 2 ^ 64 - 1 < _
    omega
  unfold refute
  rw [if_neg top]
  rfl

theorem refute_room (s : Service) {i : UInt64} (h : i ≠ 0xFFFFFFFFFFFFFFFF) : ∃ r, s.refute i = .ok r := by
  have room : i.toNat + 1 < UInt64.size := by
    have := i.toNat_lt
    have : i.toNat ≠ 2 ^ 64 - 1 := fun e => h (UInt64.toNat_inj.mp e)
    show _ < 2 ^ 64
    omega
  unfold refute
  split
  next => exact ⟨_, rfl⟩
  next => exact ⟨_, rfl⟩

theorem handle_last (s : Service) (now : Nat) (src : SocketAddress) :
    s.handle now src (lastWord s.self.id) = .error .sumOverflow := by
  unfold handle lastWord
  dsimp only
  rw [if_pos rfl]
  exact s.refute_last

theorem handle_other (s : Service) (now : Nat) (src : SocketAddress) {m : GossipMessage} (h : m ≠ lastWord s.self.id) :
    ∃ r, s.handle now src m = .ok r := by
  cases m with
  | suspect node i =>
    unfold handle
    dsimp only
    split
    next own =>
      refine s.refute_room fun e => h ?_
      rw [own, e]
      rfl
    next => exact ⟨_, rfl⟩
  | _ => exact ⟨_, rfl⟩

theorem after_isOk (s : Service) (o : Occurrence) :
    (∃ step, s.after o = .ok step) ↔ ∀ now src, o ≠ .hears now src (lastWord s.self.id) := by
  cases o with
  | looks now => exact ⟨fun _ _ _ h => Occurrence.noConfusion h, fun _ => ⟨_, rfl⟩⟩
  | hears now src m =>
    rw [after, receive_eq]
    constructor
    · rintro ⟨step, h⟩ now' src' e
      cases e
      rw [handle_last] at h
      cases h
    · intro h
      obtain ⟨r, hr⟩ := s.handle_other now src fun e => h now src (congrArg _ e)
      exact ⟨_, by rw [hr]; rfl⟩

/-- A run comes to its end unless a message is the last word. -/
theorem run_isOk (s : Service) (os : List Occurrence) :
    (∃ t, s.run os = .ok t) ↔ ∀ now src, .hears now src (lastWord s.self.id) ∉ os := by
  induction os generalizing s with
  | nil => exact ⟨fun _ _ _ => List.not_mem_nil, fun _ => ⟨s, rfl⟩⟩
  | cons o os ih =>
    rw [run_cons]
    simp only [List.mem_cons, not_or, forall_and]
    cases ho : s.after o with
    | error a =>
      refine ⟨?_, fun h => ?_⟩
      · rintro ⟨t, ht⟩
        cases ht
      · obtain ⟨step, hstep⟩ := (s.after_isOk o).mpr fun now src e => h.1 now src e.symm
        cases ho.symm.trans hstep
    | ok step =>
      have next := ih step.service
      rw [(after_eq ho).1] at next
      have goes := (s.after_isOk o).mp ⟨step, ho⟩
      exact next.trans ⟨fun h => ⟨fun now src e => goes now src e.symm, h⟩, And.right⟩

theorem receiveBytes_garbage (s : Service) (now : Nat) (src : SocketAddress) {bytes : List UInt8} {f : Wire.Fault}
    (h : GossipMessage.codec.decode bytes = .error f) : s.receiveBytes now src bytes = .ok ⟨s, [], false⟩ := by
  unfold receiveBytes
  rw [h]

theorem receiveBytes_message (s : Service) (now : Nat) (src : SocketAddress) {bytes : List UInt8} {m : GossipMessage}
    (h : GossipMessage.codec.decode bytes = .ok m) : s.receiveBytes now src bytes = s.receive now src m := by
  unfold receiveBytes
  rw [h]

theorem takes_eq (s : Service) (input : Input) :
    s.takes input = input.occurrence?.elim (.ok ⟨s, [], false⟩) s.after := by
  cases input with
  | timer now => rfl
  | datagram now src bytes =>
    unfold takes Input.occurrence?
    dsimp only
    cases hd : GossipMessage.codec.decode bytes with
    | error f => exact receiveBytes_garbage s now src hd
    | ok m => exact receiveBytes_message s now src hd

/-- What comes as bytes is a run of messages and looks. -/
theorem serve_eq_run (s : Service) (inputs : List Input) :
    s.serve inputs = s.run (inputs.filterMap Input.occurrence?) := by
  induction inputs generalizing s with
  | nil => rfl
  | cons input inputs ih =>
    have first : s.serve (input :: inputs) = (s.takes input).bind fun step => step.service.serve inputs := by
      unfold serve
      rw [List.foldlM_cons]
      cases s.takes input <;> rfl
    rw [first, takes_eq]
    cases ho : input.occurrence? with
    | none =>
      rw [List.filterMap_cons_none ho]
      exact ih s
    | some o =>
      rw [List.filterMap_cons_some ho, run_cons]
      exact congrArg (s.after o).bind (funext fun step => ih step.service)

theorem fatal_iff {self : NodeId} {input : Input} :
    input.Fatal self ↔ ∃ now src, input.occurrence? = some (.hears now src (lastWord self)) := by
  cases input with
  | timer now =>
    refine ⟨False.elim, ?_⟩
    rintro ⟨now', src', h⟩
    cases h
  | datagram now src bytes =>
    refine GossipMessage.decode_suspect.symm.trans ?_
    unfold Input.occurrence?
    dsimp only
    cases GossipMessage.codec.decode bytes with
    | error f => simp [Except.toOption]
    | ok m => simp [Except.toOption, lastWord]

/-- Whatever comes, a service stops at a fatal datagram and at nothing else. -/
theorem serve_isOk (s : Service) (inputs : List Input) :
    (∃ t, s.serve inputs = .ok t) ↔ ∀ input ∈ inputs, ¬ input.Fatal s.self.id := by
  rw [serve_eq_run, run_isOk]
  constructor
  · intro h input hi fatal
    obtain ⟨now, src, ho⟩ := fatal_iff.mp fatal
    exact h now src (List.mem_filterMap.mpr ⟨input, hi, ho⟩)
  · intro h now src hm
    obtain ⟨input, hi, ho⟩ := List.mem_filterMap.mp hm
    exact h input hi (fatal_iff.mpr ⟨now, src, ho⟩)

theorem takes_fatal {s : Service} {input : Input} (h : input.Fatal s.self.id) :
    s.takes input = .error .sumOverflow := by
  obtain ⟨now, src, ho⟩ := fatal_iff.mp h
  rw [takes_eq, ho, Option.elim_some, after, receive_eq, handle_last]
  rfl

theorem takes_harmless {s : Service} {input : Input} (h : ¬ input.Fatal s.self.id) :
    ∃ step, s.takes input = .ok step := by
  rw [takes_eq]
  cases ho : input.occurrence? with
  | none => exact ⟨_, rfl⟩
  | some o =>
    refine (s.after_isOk o).mpr fun now src e => h (fatal_iff.mpr ⟨now, src, ?_⟩)
    rw [ho, e]

/-- A suspicion of the node that is older than its claim is none any more; any other one is answered with a claim that is
higher by one, to every peer that is alive. -/
structure Refuted (s : Service) (i : UInt64) (step : Step) : Prop where
  above : i < step.service.incarnation
  rising : s.incarnation ≤ step.service.incarnation
  old : i < s.incarnation → step.service.incarnation = s.incarnation ∧ step.letters = []
  news : s.incarnation ≤ i → step.service.incarnation.toNat = i.toNat + 1 ∧
    step.letters = step.service.toPeers (.alive s.self.id step.service.incarnation)

theorem refuted {s : Service} {now : Nat} {src : SocketAddress} {i : UInt64} {step : Step}
    (h : s.receive now src (.suspect s.self.id i) = .ok step) : Refuted s i step := by
  obtain ⟨t, handled, published⟩ := receive_ok h
  have claim : step.service.incarnation.toNat = max s.incarnation.toNat (i.toNat + 1) := by
    have claimed := (after_eq (o := .hears now src (.suspect s.self.id i)) h).2.1
    rw [claimed]
    exact if_pos rfl
  have word : s.refute i = .ok (t, step.letters) := by
    unfold handle at handled
    dsimp only at handled
    rwa [if_pos rfl] at handled
  refine ⟨?_, ?_, fun old => ?_, fun news => ?_⟩
  · rw [UInt64.lt_iff_toNat_lt, claim]
    omega
  · rw [UInt64.le_iff_toNat_le, claim]
    omega
  · rw [refute, if_pos old] at word
    rw [UInt64.lt_iff_toNat_lt] at old
    exact ⟨UInt64.toNat_inj.mp (by rw [claim]; omega), (Prod.mk.inj (Except.ok.inj word)).2.symm⟩
  · have higher : step.service.incarnation.toNat = i.toNat + 1 := by
      rw [UInt64.le_iff_toNat_le] at news
      omega
    have same (t : Service) (m : GossipMessage) : t.publish.1.toPeers m = t.toPeers m := by
      unfold publish
      split <;> rfl
    rw [refute, if_neg (UInt64.not_lt.mpr news)] at word
    split at word
    next =>
      obtain ⟨rfl, letters⟩ := Prod.mk.inj (Except.ok.inj word)
      refine ⟨higher, ?_⟩
      rw [published, same, ← letters, (publish_eq _).2.1]
    next => cases word

/-- No datagram stops a service but the one that is fatal. Bytes that are no message change nothing, and every
suspicion of the node itself that is handled at all is refuted. -/
theorem datagrams_survived (id : NodeId) (gossipAddr rpcAddr : SocketAddress) (begun : Nat) (inputs : List Input) :
    ((∃ s, (start id gossipAddr rpcAddr begun).serve inputs = .ok s) ↔ ∀ input ∈ inputs, ¬ input.Fatal id) ∧
    ∀ s, (start id gossipAddr rpcAddr begun).serve inputs = .ok s → ∀ now src bytes,
      ((Input.datagram now src bytes).Fatal id → s.receiveBytes now src bytes = .error .sumOverflow) ∧
      (¬ (Input.datagram now src bytes).Fatal id → ∃ step, s.receiveBytes now src bytes = .ok step) ∧
      (∀ f, GossipMessage.codec.decode bytes = .error f → s.receiveBytes now src bytes = .ok ⟨s, [], false⟩) ∧
      ∀ i step, GossipMessage.codec.decode bytes = .ok (.suspect id i) → s.receiveBytes now src bytes = .ok step →
        Refuted s i step := by
  refine ⟨serve_isOk _ inputs, fun s hs now src bytes => ?_⟩
  -- what is served is a run, and no run changes the own identity
  rw [serve_eq_run] at hs
  have self : s.self.id = id :=
    run_keeps (P := fun t => t.self.id = id) (fun _ _ _ _ hs ho => (congrArg Member.id (after_eq ho).1).trans hs) rfl hs
  subst self
  refine ⟨fun fatal => takes_fatal fatal, fun harmless => takes_harmless harmless,
    fun f hf => receiveBytes_garbage s now src hf, fun i step hd hr => ?_⟩
  rw [receiveBytes_message s now src hd] at hr
  exact refuted hr

/-- A byte too few, and then a suspicion of the node itself. -/
def noise : List Input :=
  [.datagram 1 (.v4 2 7946) [4, 0, 0], .timer 2, .datagram 3 (.v4 2 7946) (GossipMessage.codec.write (.suspect ⟨"a"⟩ 5))]

theorem datagrams_survived_noise :
    ∃ s step, (start ⟨"a"⟩ (.v4 1 7946) (.v4 1 7947) 0).serve noise = .ok s ∧ s.incarnation = 6 ∧
      s.receiveBytes 4 (.v4 2 7946) (GossipMessage.codec.write (.suspect ⟨"a"⟩ 8)) = .ok step ∧
      8 < step.service.incarnation := by
  obtain ⟨served, received⟩ := datagrams_survived ⟨"a"⟩ (.v4 1 7946) (.v4 1 7947) 0 noise
  obtain ⟨s, hs⟩ := served.mpr (by decide)
  have six : s.incarnation = 6 := by cases hs; rfl
  obtain ⟨_, harmless, _, refutes⟩ :=
    received s hs 4 (.v4 2 7946) (GossipMessage.codec.write (.suspect ⟨"a"⟩ 8))
  obtain ⟨step, taken⟩ := harmless (by decide)
  have read : GossipMessage.codec.decode (GossipMessage.codec.write (.suspect ⟨"a"⟩ 8)) = .ok (.suspect ⟨"a"⟩ 8) :=
    GossipMessage.decode_write (m := .suspect ⟨"a"⟩ 8) (by decide)
  exact ⟨s, step, hs, six, taken, (refutes 8 step read taken).above⟩

/-- One datagram is enough to stop a service that has just begun. -/
theorem stopped_by_datagram :
    ¬ ∀ id gossipAddr rpcAddr begun inputs s, (start id gossipAddr rpcAddr begun).serve inputs = .ok s →
      ∀ now src bytes, ∃ step, s.receiveBytes now src bytes = .ok step := by
  intro survives
  obtain ⟨step, h⟩ := survives ⟨"a"⟩ (.v4 1 7946) (.v4 1 7947) 0 [] _ rfl 1 (.v4 2 7946)
    (GossipMessage.codec.write (lastWord ⟨"a"⟩))
  have fatal : (Input.datagram 1 (.v4 2 7946) (GossipMessage.codec.write (lastWord ⟨"a"⟩))).Fatal ⟨"a"⟩ :=
    ⟨by decide, List.prefix_refl _⟩
  have stops := takes_fatal (s := start ⟨"a"⟩ (.v4 1 7946) (.v4 1 7947) 0) fatal
  cases h.symm.trans stops

end Service

end Workshare.Gossip
