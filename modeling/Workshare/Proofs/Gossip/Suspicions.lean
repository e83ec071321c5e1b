import Workshare.Proofs.Gossip.Records

namespace Workshare.Gossip.Service

/-- A member was alive before a look at the members, and is suspect after it. -/
structure Turns (s t : Service) (m : Member) : Prop where
  before : ∃ k, s.get? m.id = some k ∧ k.member.state = .alive
  after : ∃ k, t.get? m.id = some k ∧ k.member = m
  state : m.state = .suspect

/-- Another member that a service takes for alive. -/
structure Peer (s : Service) (p : Member) : Prop where
  recorded : ∃ k, s.get? p.id = some k ∧ k.member = p
  other : p.id ≠ s.self.id
  state : p.state = .alive

theorem ids_all {s : Service} (hs : s.Keyed) : s.all.map (·.id) = s.members.keys := by
  unfold all Table.keys
  rw [List.map_map]
  exact List.map_congr_left fun e he => hs e.1 e.2 (Table.get?_eq_some_iff.mpr he)

theorem mem_all {s : Service} (hs : s.Keyed) {m : Member} :
    m ∈ s.all ↔ ∃ k, s.get? m.id = some k ∧ k.member = m := by
  unfold all
  rw [List.mem_map]
  constructor
  · rintro ⟨⟨n, k⟩, he, rfl⟩
    have found : s.get? n = some k := Table.get?_eq_some_iff.mpr he
    exact ⟨k, by rw [hs n k found, found], rfl⟩
  · rintro ⟨k, found, rfl⟩
    exact ⟨(k.member.id, k), Table.get?_eq_some_iff.mp found, rfl⟩

theorem mem_livePeers {s : Service} (hs : s.Keyed) {p : Member} : p ∈ s.livePeers ↔ s.Peer p := by
  unfold livePeers alive
  rw [List.mem_filter, List.mem_filter, mem_all hs, decide_eq_true_eq, decide_eq_true_eq]
  exact ⟨fun h => ⟨h.1.1, h.2, h.1.2⟩, fun h => ⟨⟨h.recorded, h.state⟩, h.other⟩⟩

theorem nodup_livePeers {s : Service} (hs : s.Keyed) : (s.livePeers.map (·.id)).Nodup := by
  have sub : s.livePeers.Sublist s.all := List.filter_sublist.trans List.filter_sublist
  have once := s.members.nodup_keys
  rw [← ids_all hs] at once
  exact once.sublist (sub.map _)

theorem get?_detect (s : Service) (now : Nat) (n : NodeId) :
    (s.detect now).service.get? n = if n = s.self.id then s.get? n else (s.get? n).map (judge now) :=
  (after_eq (o := .looks now) rfl).2.2 n

theorem mem_newSuspects {s : Service} (hs : s.Keyed) {now : Nat} {m : Member} :
    m ∈ s.newSuspects now ↔ Turns s (s.detect now).service m := by
  unfold newSuspects
  rw [List.mem_filterMap]
  constructor
  · rintro ⟨⟨n, k⟩, he, hm⟩
    have found : s.get? n = some k := Table.get?_eq_some_iff.mpr he
    dsimp only at hm
    split at hm
    next cond =>
      cases hm
      simp only [Bool.and_eq_true, decide_eq_true_eq] at cond
      have named : (judge now k).member.id = n := (congrArg Prod.fst (card_judge now k)).trans (hs n k found)
      refine ⟨⟨k, by rw [named, found], cond.1.2⟩, ⟨judge now k, ?_, rfl⟩, cond.2⟩
      rw [get?_detect, named, if_neg cond.1.1, found]
      rfl
    next => cases hm
  · rintro ⟨⟨k, found, live⟩, ⟨k', found', rfl⟩, suspect⟩
    rw [get?_detect, found] at found'
    split at found'
    next =>
      cases found'
      rw [live] at suspect
      cases suspect
    next other =>
      cases found'
      refine ⟨(_, k), Table.get?_eq_some_iff.mp found, ?_⟩
      dsimp only
      rw [if_pos]
      simp [other, live, suspect]

theorem filterMap_sublist_map {α β γ : Type} {f : α → Option β} {key : β → γ} {name : α → γ} {l : List α}
    (h : ∀ a ∈ l, ∀ b, f a = some b → key b = name a) : ((l.filterMap f).map key).Sublist (l.map name) := by
  induction l with
  | nil => exact .slnil
  | cons a l ih =>
    have rest := ih fun a' ha' => h a' (List.mem_cons_of_mem _ ha')
    cases hf : f a with
    | none =>
      rw [List.filterMap_cons_none hf]
      exact rest.cons _
    | some b =>
      rw [List.filterMap_cons_some hf, List.map_cons, List.map_cons, h a List.mem_cons_self b hf]
      exact rest.cons_cons _

theorem nodup_newSuspects {s : Service} (hs : s.Keyed) (now : Nat) : ((s.newSuspects now).map (·.id)).Nodup := by
  refine s.members.nodup_keys.sublist (filterMap_sublist_map fun e he m hm => ?_)
  obtain ⟨n, k⟩ := e
  dsimp only at hm
  split at hm
  next =>
    cases hm
    exact (congrArg Prod.fst (card_judge now k)).trans (hs n k (Table.get?_eq_some_iff.mpr he))
  next => cases hm

theorem detect_letters (s : Service) (now : Nat) :
    (s.detect now).letters =
      (s.newSuspects now).flatMap fun m => (s.detect now).service.toPeers (.suspect m.id m.incarnation) :=
  rfl

/-- A message to the peers goes to an address once for each peer there. -/
theorem count_letters (peers : List Member) (message other : GossipMessage) (a : SocketAddress) :
    (peers.map fun p => (⟨p.gossipAddr, other⟩ : Letter)).count ⟨a, message⟩ =
      if other = message then (peers.map (·.gossipAddr)).count a else 0 := by
  induction peers with
  | nil => simp
  | cons p peers ih =>
    rw [List.map_cons, List.count_cons, ih, List.map_cons, List.count_cons]
    by_cases same : other = message
    · simp [same]
    · simp [same]

/-- Each suspect has a message of its own. -/
theorem count_suspicions {suspects : List Member} (once : (suspects.map (·.id)).Nodup) (peers : List Member) {m : Member}
    (hm : m ∈ suspects) (a : SocketAddress) :
    (suspects.flatMap fun m => peers.map fun p => (⟨p.gossipAddr, .suspect m.id m.incarnation⟩ : Letter)).count
      ⟨a, .suspect m.id m.incarnation⟩ = (peers.map (·.gossipAddr)).count a := by
  induction suspects with
  | nil => cases hm
  | cons m' suspects ih =>
    obtain ⟨fresh, once⟩ := List.nodup_cons.mp once
    rw [List.flatMap_cons, List.count_append, count_letters]
    rcases List.mem_cons.mp hm with rfl | hm
    · have rest : (suspects.flatMap fun m' => peers.map fun p =>
          (⟨p.gossipAddr, .suspect m'.id m'.incarnation⟩ : Letter)).count ⟨a, .suspect m.id m.incarnation⟩ = 0 := by
        refine List.count_eq_zero_of_not_mem fun h => ?_
        obtain ⟨m', hm', h⟩ := List.mem_flatMap.mp h
        obtain ⟨p, _, e⟩ := List.mem_map.mp h
        have same : m'.id = m.id := (GossipMessage.suspect.inj (Letter.mk.inj e).2).1
        exact fresh (List.mem_map.mpr ⟨m', hm', same⟩)
      rw [if_pos rfl, rest, Nat.add_zero]
    · have other : GossipMessage.suspect m'.id m'.incarnation ≠ .suspect m.id m.incarnation := by
        intro e
        exact fresh (List.mem_map.mpr ⟨m, hm, (GossipMessage.suspect.inj e).1.symm⟩)
      rw [if_neg other, ih once hm, Nat.zero_add]

/-- Nothing but the state of a member changes when it turns suspect. -/
theorem judge_suspect {now : Nat} {k : Known} (live : k.member.state = .alive)
    (suspect : (judge now k).member.state = .suspect) : k.member = { (judge now k).member with state := .alive } := by
  obtain ⟨⟨id, gossipAddr, rpcAddr, state, incarnation⟩, seen⟩ := k
  cases live
  cases seen with
  | none => cases suspect
  | some seen =>
    unfold judge at suspect ⊢
    dsimp only at suspect ⊢
    split at suspect
    next silent => rw [if_pos silent]
    next => cases suspect

theorem Turns.member {s : Service} {now : Nat} {m : Member} (h : Turns s (s.detect now).service m) :
    ∃ k, s.get? m.id = some k ∧ k.member = { m with state := .alive } := by
  obtain ⟨⟨k, found, live⟩, ⟨k', found', rfl⟩, suspect⟩ := h
  refine ⟨k, found, ?_⟩
  rw [get?_detect, found] at found'
  split at found'
  next =>
    cases found'
    rw [live] at suspect
    cases suspect
  next =>
    cases found'
    exact judge_suspect live suspect

/-- What a look at the members sends is, for each member that it turns suspect, one suspicion to each peer that is
alive after it. A suspect is no such peer; the word about itself comes to its address only where a peer that is
alive has the same one. -/
theorem suspicions_told {id : NodeId} {gossipAddr rpcAddr : SocketAddress} {begun : Nat} {os : List Occurrence}
    {s : Service} (h : (start id gossipAddr rpcAddr begun).run os = .ok s) (now : Nat) :
    let step := s.detect now
    let suspects := s.newSuspects now
    let peers := step.service.livePeers
    (suspects.map (·.id)).Nodup ∧ (∀ m, m ∈ suspects ↔ Turns s step.service m) ∧
    (peers.map (·.id)).Nodup ∧ (∀ p, p ∈ peers ↔ Peer step.service p) ∧ step.service.self.id = id ∧
    step.letters = (suspects.flatMap fun m => peers.map fun p => ⟨p.gossipAddr, .suspect m.id m.incarnation⟩) ∧
    ∀ m ∈ suspects,
      (∃ k, s.get? m.id = some k ∧ k.member = { m with state := .alive }) ∧
      (∀ a, step.letters.count ⟨a, .suspect m.id m.incarnation⟩ = (peers.map (·.gossipAddr)).count a) ∧
      m ∉ peers ∧
      (⟨m.gossipAddr, .suspect m.id m.incarnation⟩ ∈ step.letters ↔ ∃ p ∈ peers, p.gossipAddr = m.gossipAddr) := by
  intro step suspects peers
  have keyed : s.Keyed := run_keeps (P := Keyed) (fun _ _ _ _ hs ho => hs.after ho) (.start _ _ _ _) h
  have self : s.self.id = id :=
    run_keeps (P := fun t => t.self.id = id) (fun _ _ _ _ hs ho => (congrArg Member.id (after_eq ho).1).trans hs) rfl h
  have stepped : s.after (.looks now) = .ok step := rfl
  have keyed' : step.service.Keyed := keyed.after stepped
  have once : (suspects.map (·.id)).Nodup := nodup_newSuspects keyed now
  refine ⟨once, fun m => mem_newSuspects keyed, nodup_livePeers keyed', fun p => mem_livePeers keyed',
    (congrArg Member.id (after_eq stepped).1).trans self, detect_letters s now, fun m hm => ?_⟩
  have turns := (mem_newSuspects keyed).mp hm
  have copies (a : SocketAddress) :
      step.letters.count ⟨a, .suspect m.id m.incarnation⟩ = (peers.map (·.gossipAddr)).count a :=
    count_suspicions once peers hm a
  refine ⟨turns.member, copies, fun hp => ?_, ?_⟩
  · have live := ((mem_livePeers keyed').mp hp).state
    rw [turns.state] at live
    cases live
  · rw [← List.count_pos_iff, copies, List.count_pos_iff, List.mem_map]

/-- Two peers come; one of them is not heard of again. -/
def silence : List Occurrence :=
  [.hears 1 (.v4 2 7946) (.join ⟨⟨"b"⟩, .v4 2 7946, .v4 2 7947, .alive, 1⟩),
    .hears 4000 (.v4 3 7946) (.join ⟨⟨"c"⟩, .v4 3 7946, .v4 3 7947, .alive, 4⟩)]

theorem suspicions_told_silence :
    ∃ s, (start ⟨"a"⟩ (.v4 1 7946) (.v4 1 7947) 0).run silence = .ok s ∧
      Turns s (s.detect 6000).service ⟨⟨"b"⟩, .v4 2 7946, .v4 2 7947, .suspect, 1⟩ ∧
      (s.detect 6000).letters.count ⟨.v4 3 7946, .suspect ⟨"b"⟩ 1⟩ = 1 ∧
      ⟨.v4 2 7946, .suspect ⟨"b"⟩ 1⟩ ∉ (s.detect 6000).letters := by
  obtain ⟨s, h⟩ : ∃ s, (start ⟨"a"⟩ (.v4 1 7946) (.v4 1 7947) 0).run silence = .ok s := ⟨_, rfl⟩
  obtain ⟨_, turned, _, _, _, _, told⟩ := suspicions_told h 6000
  have turns : Turns s (s.detect 6000).service ⟨⟨"b"⟩, .v4 2 7946, .v4 2 7947, .suspect, 1⟩ := by
    cases h
    exact ⟨⟨_, rfl, rfl⟩, ⟨_, rfl, rfl⟩, rfl⟩
  have peers : (s.detect 6000).service.livePeers = [⟨⟨"c"⟩, .v4 3 7946, .v4 3 7947, .alive, 4⟩] := by
    cases h
    rfl
  obtain ⟨_, copies, _, own⟩ := told _ ((turned _).mpr turns)
  rw [peers] at copies own
  exact ⟨s, h, turns, copies _, fun hl => absurd (own.mp hl) (by decide)⟩

/-- A suspect need not be told. -/
theorem suspect_untold :
    ¬ ∀ id gossipAddr rpcAddr begun os s, (start id gossipAddr rpcAddr begun).run os = .ok s →
      ∀ now m, Turns s (s.detect now).service m →
        ⟨m.gossipAddr, .suspect m.id m.incarnation⟩ ∈ (s.detect now).letters := by
  intro told
  have letter := told ⟨"a"⟩ (.v4 1 7946) (.v4 1 7947) 0 silence _ rfl 6000
    ⟨⟨"b"⟩, .v4 2 7946, .v4 2 7947, .suspect, 1⟩ ⟨⟨_, rfl, rfl⟩, ⟨_, rfl, rfl⟩, rfl⟩
  exact absurd letter (by decide)

end Workshare.Gossip.Service
