import Mathlib.Algebra.BigOperators.Group.Finset.Basic
import Mathlib.Algebra.Ring.Nat
import Mathlib.Data.List.Perm.Basic
import Workshare.Proofs.Group.Gathering
import Workshare.Proofs.Manager.Tallies

namespace Workshare.Group

open Wire Manager

section Stations

variable {α : Type} (address : Codec α) {g : Group α} {n : NodeId} {s : Station α}

theorem mem_peerAddresses {b : AddressBook α} {a : α} :
    a ∈ b.peerAddresses ↔ ∃ p, p ≠ b.self ∧ b.addresses.get? p = some a := by
  unfold AddressBook.peerAddresses
  constructor
  · intro h
    obtain ⟨⟨p, a'⟩, he, hf⟩ := List.mem_filterMap.mp h
    dsimp only at hf
    split at hf
    next => cases hf
    next hp => cases hf; exact ⟨p, hp, Table.get?_eq_some_iff.mpr he⟩
  · rintro ⟨p, hp, ha⟩
    exact List.mem_filterMap.mpr ⟨(p, a), Table.get?_eq_some_iff.mp ha, by simp [hp]⟩

theorem peerAddresses_eq (b : AddressBook α) :
    b.peerAddresses = (b.addresses.entries.filter (·.1 ≠ b.self)).map (·.2) := by
  unfold AddressBook.peerAddresses
  generalize b.addresses.entries = entries
  induction entries with
  | nil => rfl
  | cons e entries ih =>
    by_cases he : e.1 = b.self
    · rw [List.filterMap_cons, List.filter_cons, if_neg (by simp [he])]
      simpa [he] using ih
    · rw [List.filterMap_cons, List.filter_cons, if_pos (by simp [he]), List.map_cons]
      simpa [he] using ih

theorem nodup_entries {κ β : Type} [Key κ] (t : Table κ β) : t.entries.Nodup := by
  refine t.sorted.imp ?_
  rintro a b h rfl
  exact Key.irrefl _ h

/-- Whoever stands in the book of a node is the station of that address. -/
theorem Assembled.station_of_book (h : g.Assembled) (hn : g.stations.get? n = some s) {p : NodeId} {a : α}
    (hp : p ≠ n) (ha : s.book.addresses.get? p = some a) : ∃ t, g.stations.get? p = some t ∧ t.address = a := by
  rw [h.reaches hn hp] at ha
  exact Option.map_eq_some_iff.mp ha

theorem act_eq (hn : g.stations.get? n = some s) (x : Move) :
    g.act address n x =
      ⟨g.stations.insert n { s with manager := { s.manager.move x with outbox := [] } },
        g.flying ++ (s.manager.move x).outbox.flatMap (mail address s.book)⟩ := by
  unfold act
  rw [hn]
  rfl

theorem contains_act (n : NodeId) (x : Move) (p : NodeId) :
    (g.act address n x).stations.contains p = g.stations.contains p := by
  cases hn : g.stations.get? n with
  | none => unfold act; rw [hn]
  | some s =>
    rw [act_eq address hn, Table.contains_insert]
    by_cases hp : p = n
    · subst hp
      simp [Table.contains, hn]
    · simp [hp]

/-- What a move that the group does not notice otherwise does to the station that makes it. -/
structure Mild (m m' : Manager) : Prop where
  tells : Tells m m'
  members : m'.members = m.members
  sound : m.Sound → m'.Sound

theorem mild_free (m : Manager) (q : NodeId) (long : Bool) (free : UInt64) :
    Mild m (m.move (.hear (.free q long free))) :=
  ⟨Tells.hear m (.free q long free), updateFree_members m q long free, fun h => h.updateFree q long free⟩

theorem mild_delta (m : Manager) (q : NodeId) (c : Counter) : Mild m (m.move (.hear (.delta q c))) :=
  ⟨Tells.hear m (.delta q c), (Steady.delta m q c).members, fun h => h.delta q c⟩

theorem mild_of_stays {m : Manager} (h : m.statistics.replicatesTo.isSome) {x : Move} (hx : x.stays) :
    Mild m (m.move x) :=
  ⟨.move h (Move.isPlain_of_stays hx), (Steady.move m (Move.isHome_of_stays hx)).members, fun hs => hs.move x⟩

/-- The station of a node after a move is that of before, but for its manager. -/
theorem station_act (hn : g.stations.get? n = some s) {x : Move} {o : NodeId} {t : Station α}
    (ho : (g.act address n x).stations.get? o = some t) :
    o = n ∧ t = { s with manager := { s.manager.move x with outbox := [] } } ∨ o ≠ n ∧ g.stations.get? o = some t := by
  rw [act_eq address hn, Table.get?_insert] at ho
  split at ho
  next h => exact .inl ⟨h, (Option.some.inj ho).symm⟩
  next h => exact .inr ⟨h, ho⟩

theorem Assembled.act (h : g.Assembled) (hn : g.stations.get? n = some s) {x : Move}
    (hx : Mild s.manager (s.manager.move x)) : (g.act address n x).Assembled := by
  have before : ∀ {o t}, (g.act address n x).stations.get? o = some t →
      ∃ t', g.stations.get? o = some t' ∧ t.address = t'.address ∧ t.book = t'.book ∧ t.manager.id = t'.manager.id ∧
        t.manager.members = t'.manager.members ∧
        t.manager.statistics.replicatesTo = t'.manager.statistics.replicatesTo ∧
        (t'.manager.Sound → t.manager.Sound) ∧ t.manager.outbox = [] := by
    intro o t ho
    rcases station_act address hn ho with ⟨rfl, rfl⟩ | ⟨_, ho⟩
    · exact ⟨s, hn, rfl, rfl, hx.tells.id, hx.members, hx.tells.channel,
        fun hs => (hx.sound hs).of_eq rfl rfl rfl rfl rfl rfl, rfl⟩
    · exact ⟨t, ho, rfl, rfl, rfl, rfl, rfl, fun hs => hs, h.quiet ho⟩
  refine ⟨?_, ?_, ?_, ?_, ?_, ?_, ?_⟩
  · intro o t ho
    obtain ⟨t', ho', _, hb, hi, _⟩ := before ho
    rw [hi, hb]
    exact h.named ho'
  · intro o t ho
    obtain ⟨t', ho', _, _, _, _, _, hs, _⟩ := before ho
    exact hs (h.sound ho')
  · intro o t p ho hp
    obtain ⟨t', ho', _, _, _, hm, _⟩ := before ho
    rw [hm]
    exact h.knows ho' (by rwa [contains_act] at hp)
  · intro o t p ho hp
    obtain ⟨t', ho', _, hb, _⟩ := before ho
    rw [hb, h.reaches ho' hp, act_eq address hn, Table.get?_insert]
    split
    next e => rw [e, hn]; rfl
    next => rfl
  · intro o t p u ho hp ha
    obtain ⟨t', ho', hat, _⟩ := before ho
    obtain ⟨u', hp', hau, _⟩ := before hp
    exact h.apart ho' hp' (by rw [← hat, ← hau, ha])
  · intro o t ho
    obtain ⟨t', ho', _, _, _, _, hr, _⟩ := before ho
    rw [hr]
    exact h.replicates ho'
  · intro o t ho
    obtain ⟨_, _, _, _, _, _, _, _, hq⟩ := before ho
    exact hq

theorem Assembled.letters (h : g.Assembled) (flying : List (Letter α)) :
    ({ g with flying := flying } : Group α).Assembled :=
  ⟨h.named, h.sound, h.knows, h.reaches, h.apart, h.replicates, h.quiet⟩

theorem notice?_kinds {l : Letter α} {notice : Notice} (h : notice? address l = some notice) :
    (∃ q long free, notice = .free q long free) ∨ ∃ q c, notice = .delta q c := by
  obtain ⟨r, _, hr⟩ := Option.bind_eq_some_iff.mp h
  cases r with
  | updateShortRunningFree q free => cases hr; exact .inl ⟨_, _, _, rfl⟩
  | updateLongRunningFree q free => cases hr; exact .inl ⟨_, _, _, rfl⟩
  | delta q c => cases hr; exact .inr ⟨_, _, rfl⟩
  | _ => cases hr

end Stations

variable {α : Type} [DecidableEq α] (address : Codec α)

/-- What a node knows and what is on its way to it make up everybody's tally, but for what is `due`: letters that it
has been given and has not counted yet. No news is of strangers. -/
structure Conserves (due : NodeId → NodeId → Counter → Nat) (g : Group α) : Prop where
  copies : ∀ {o s p t}, g.stations.get? o = some s → g.stations.get? p = some t → o ≠ p → ∀ c,
    (s.manager.statistics.known p).get c + g.pending address p c s.address + due o p c =
      t.manager.statistics.own.get c
  origins : ∀ {l p c a}, l ∈ g.flying → carries address p c a l → g.stations.contains p
  listed : ∀ {o s q u}, g.stations.get? o = some s → s.manager.statistics.peers.get? q = some u →
    g.stations.contains q ∧ ∃ c, 0 < u.get c

def nothing (_ _ : NodeId) (_ : Counter) : Nat :=
  0

section Letters

variable {g : Group α} {n : NodeId} {s : Station α}

/-- A broadcast reaches each of the others once. -/
theorem Assembled.count_peer (h : g.Assembled) (hn : g.stations.get? n = some s) {o : NodeId} {t : Station α}
    (ho : g.stations.get? o = some t) (hne : o ≠ n) : s.book.peerAddresses.count t.address = 1 := by
  obtain ⟨_, hself, _⟩ := h.named hn
  have nodup : s.book.peerAddresses.Nodup := by
    rw [peerAddresses_eq]
    refine List.Nodup.map_on ?_ ((nodup_entries _).filter _)
    rintro ⟨p, a⟩ hp ⟨q, b⟩ hq rfl
    obtain ⟨hp, hpn⟩ := List.mem_filter.mp hp
    obtain ⟨hq, hqn⟩ := List.mem_filter.mp hq
    rw [decide_eq_true_eq, hself] at hpn hqn
    obtain ⟨tp, htp, hap⟩ := h.station_of_book hn hpn (Table.get?_eq_some_iff.mpr hp)
    obtain ⟨tq, htq, haq⟩ := h.station_of_book hn hqn (Table.get?_eq_some_iff.mpr hq)
    have hpq : p = q := h.apart htp htq (hap.trans haq.symm)
    rw [hpq]
  refine List.count_eq_one_of_mem nodup (mem_peerAddresses.mpr ⟨o, ?_, ?_⟩)
  · rw [hself]
    exact hne
  · rw [h.reaches hn hne, ho]
    rfl

/-- With each step of its tally a node has sent a letter to each of the others. -/
theorem Assembled.pending_act (h : g.Assembled) (hn : g.stations.get? n = some s) {x : Move}
    (hx : Tells s.manager (s.manager.move x)) :
    ∃ steps : List Counter,
      (∀ c, (s.manager.move x).statistics.own.get c = s.manager.statistics.own.get c + steps.count c) ∧
      ∀ p c a, (g.act address n x).pending address p c a =
        g.pending address p c a + if p = n then steps.count c * s.book.peerAddresses.count a else 0 := by
  obtain ⟨hid, _, hfits⟩ := h.named hn
  obtain ⟨news, steps, hout, hnews, hown⟩ := hx.told
  rw [h.quiet hn, List.nil_append] at hout
  rw [hid] at hnews
  refine ⟨steps, hown, ?_⟩
  intro p c a
  rw [act_eq address hn, pending, pending, List.countP_append, hout, countP_mails address s.book hfits news hnews]

end Letters

theorem known_of_ne {m : Manager} (h : m.Sound) {p : NodeId} (hp : p ≠ m.id) :
    m.statistics.known p = (m.statistics.peers.get? p).getD .zero := by
  unfold Statistics.known Statistics.get?
  rw [if_neg (by rw [h.self]; exact hp)]

theorem known_self {m : Manager} (h : m.Sound) : m.statistics.known m.id = m.statistics.own := by
  unfold Statistics.known Statistics.get?
  rw [if_pos h.self.symm]
  rfl

section Steps

variable {g : Group α} {n : NodeId} {s : Station α}

omit [DecidableEq α] in
/-- Only the node that acts writes to its own tally. -/
theorem own_act (hn : g.stations.get? n = some s) {x : Move} {steps : List Counter}
    (hown : ∀ c, (s.manager.move x).statistics.own.get c = s.manager.statistics.own.get c + steps.count c) {p : NodeId}
    {u : Station α} (hp : (g.act address n x).stations.get? p = some u) : ∃ u', g.stations.get? p = some u' ∧
      ∀ c, u.manager.statistics.own.get c = u'.manager.statistics.own.get c + if p = n then steps.count c else 0 := by
  rcases station_act address hn hp with ⟨rfl, rfl⟩ | ⟨hne, hp⟩
  · exact ⟨s, hn, fun c => by rw [if_pos rfl]; exact hown c⟩
  · exact ⟨u, hp, fun c => by rw [if_neg hne, Nat.add_zero]⟩

omit [DecidableEq α] in
/-- What the nodes know of the others changes only by what is due to the one that acts. -/
theorem known_act {due : NodeId → NodeId → Counter → Nat} (ha : g.Assembled) (hn : g.stations.get? n = some s) {x : Move}
    (hx : Mild s.manager (s.manager.move x)) (hdue : ∀ o p c, o ≠ n → due o p c = 0)
    (hcount : ∀ p, p ≠ n → ∀ c, (((s.manager.move x).statistics.peers.get? p).getD .zero).get c =
      ((s.manager.statistics.peers.get? p).getD .zero).get c + due n p c) {o : NodeId} {t : Station α}
    (ho : (g.act address n x).stations.get? o = some t) : ∃ t', g.stations.get? o = some t' ∧ t.address = t'.address ∧
      ∀ p, p ≠ o → ∀ c, (t.manager.statistics.known p).get c = (t'.manager.statistics.known p).get c + due o p c := by
  have after := ha.act address hn hx
  have sound := after.sound ho
  have named := (after.named ho).1
  rcases station_act address hn ho with ⟨rfl, rfl⟩ | ⟨hne, ho⟩
  · refine ⟨s, hn, rfl, fun p hp c => ?_⟩
    rw [known_of_ne sound (by rw [named]; exact hp), known_of_ne (ha.sound hn) (by rw [(ha.named hn).1]; exact hp)]
    exact hcount p hp c
  · exact ⟨t, ho, rfl, fun p _ c => by rw [hdue o p c hne, Nat.add_zero]⟩

theorem Conserves.act {due : NodeId → NodeId → Counter → Nat} (ha : g.Assembled) (hc : g.Conserves address due)
    (hn : g.stations.get? n = some s) {x : Move} (hx : Mild s.manager (s.manager.move x))
    (hdue : ∀ o p c, o ≠ n → due o p c = 0)
    (hcount : ∀ p, p ≠ n → ∀ c, (((s.manager.move x).statistics.peers.get? p).getD .zero).get c =
      ((s.manager.statistics.peers.get? p).getD .zero).get c + due n p c)
    (hlist : ∀ q u, (s.manager.move x).statistics.peers.get? q = some u →
      g.stations.contains q ∧ ∃ c, 0 < u.get c) :
    (g.act address n x).Conserves address nothing := by
  obtain ⟨steps, hown, hpending⟩ := ha.pending_act address hn hx.tells
  refine ⟨?_, ?_, ?_⟩
  · intro o t p u ho hp hne c
    obtain ⟨t', ho', hat, hknown⟩ := known_act address ha hn hx hdue hcount ho
    obtain ⟨u', hp', hwrote⟩ := own_act address hn hown hp
    have hold := hc.copies ho' hp' hne c
    rw [hknown p hne.symm c, hpending, hat, hwrote c, nothing]
    by_cases hpn : p = n
    · subst hpn
      rw [if_pos rfl, if_pos rfl, ha.count_peer hn ho' hne]
      omega
    · rw [if_neg hpn, if_neg hpn]
      omega
  · intro l p c a hl hcar
    rw [contains_act]
    rw [act_eq address hn] at hl
    rcases List.mem_append.mp hl with hl | hl
    · exact hc.origins hl hcar
    · have hpos := List.countP_pos_iff.mpr ⟨l, hl, hcar⟩
      have hgrow := hpending p c a
      rw [act_eq address hn, pending, pending, List.countP_append] at hgrow
      have hpn : p = n := by
        by_contra hne
        rw [if_neg hne] at hgrow
        omega
      rw [hpn, Table.contains, hn]
      rfl
  · intro o t q u ho hq
    rw [contains_act]
    rcases station_act address hn ho with ⟨rfl, rfl⟩ | ⟨_, ho⟩
    · exact hlist q u hq
    · exact hc.listed ho hq

/-- Nothing is lost while a node does something that does not touch what it knows of the others. -/
theorem Conserves.act_recalling (ha : g.Assembled) (hc : g.Conserves address nothing)
    (hn : g.stations.get? n = some s) {x : Move} (hx : Mild s.manager (s.manager.move x))
    (hr : Recalls s.manager (s.manager.move x)) : (g.act address n x).Conserves address nothing := by
  refine hc.act address ha hn hx (fun _ _ _ _ => rfl) ?_ ?_
  · intro p _ c
    rw [hr]
    rfl
  · intro q u hq
    exact hc.listed hn (hr ▸ hq)

theorem carries_iff {origin : NodeId} {c : Counter} {target : α} {l : Letter α} :
    carries address origin c target l ↔ l.target = target ∧ notice? address l = some (.delta origin c) := by
  simp [carries]

/-- A letter that has been taken out is on its way no more. -/
theorem pending_eraseIdx {i : Nat} {l : Letter α} (hl : g.flying[i]? = some l) (p : NodeId) (c : Counter) (a : α) :
    g.pending address p c a =
      ({ g with flying := g.flying.eraseIdx i } : Group α).pending address p c a +
        if carries address p c a l then 1 else 0 := by
  obtain ⟨hi, rfl⟩ := List.getElem?_eq_some_iff.mp hl
  unfold pending
  rw [← (List.getElem_cons_eraseIdx_perm hi).countP_eq, List.countP_cons]

/-- A letter that has been taken out is due where it was going. -/
theorem Conserves.take {due : NodeId → NodeId → Counter → Nat} (hc : g.Conserves address nothing) {i : Nat}
    {l : Letter α} (hl : g.flying[i]? = some l)
    (hdue : ∀ {o t}, g.stations.get? o = some t → ∀ p, o ≠ p → ∀ c,
      due o p c = if carries address p c t.address l then 1 else 0) :
    ({ g with flying := g.flying.eraseIdx i } : Group α).Conserves address due := by
  refine ⟨?_, ?_, hc.listed⟩
  · intro o t p u ho hp hne c
    have hold := hc.copies ho hp hne c
    rw [pending_eraseIdx address hl, nothing] at hold
    rw [hdue ho p hne c]
    omega
  · intro l' p c a hl' hcar
    exact hc.origins (List.mem_of_mem_eraseIdx hl') hcar

theorem receiver?_eq_some {a : α} (h : g.receiver? a = some n) : ∃ t, g.stations.get? n = some t ∧ t.address = a := by
  obtain ⟨⟨n', t⟩, hf, rfl⟩ := Option.map_eq_some_iff.mp h
  exact ⟨t, Table.get?_eq_some_iff.mpr (List.mem_of_find?_eq_some hf), by simpa using List.find?_some hf⟩

theorem receiver?_eq_none {a : α} (h : g.receiver? a = none) {o : NodeId} {t : Station α}
    (ho : g.stations.get? o = some t) : t.address ≠ a := by
  have hf := List.find?_eq_none.mp (Option.map_eq_none_iff.mp h)
  simpa using hf _ (Table.get?_eq_some_iff.mp ho)

/-- The delta that arrives is counted where it is due. -/
theorem Conserves.hear (ha : g.Assembled) (hc : g.Conserves address nothing) {i : Nat} {l : Letter α}
    (hl : g.flying[i]? = some l) (hn : g.stations.get? n = some s) (ht : s.address = l.target) {q : NodeId}
    {d : Counter} (hd : notice? address l = some (.delta q d)) :
    (({ g with flying := g.flying.eraseIdx i } : Group α).act address n (.hear (.delta q d))).Conserves address
      nothing := by
  have station : g.stations.contains q :=
    hc.origins (List.mem_of_getElem? hl) ((carries_iff address).mpr ⟨ht.symm, hd⟩)
  have heard := delta_peers (ha.sound hn) (ha.knows hn station) d
  rw [(ha.named hn).1] at heard
  -- one letter less is in flight, and the copy at its receiver is one higher
  have taken : ({ g with flying := g.flying.eraseIdx i } : Group α).Conserves address
      fun o p c => if o = n ∧ p = q ∧ c = d then 1 else 0 := by
    refine hc.take address hl ?_
    intro o t ho p _ c
    refine if_congr ?_ rfl rfl
    rw [carries_iff, hd, ← ht]
    constructor
    · rintro ⟨rfl, rfl, rfl⟩
      rw [hn] at ho
      cases ho
      exact ⟨rfl, rfl⟩
    · rintro ⟨hat, hpc⟩
      cases hpc
      exact ⟨ha.apart ho hn hat.symm, rfl, rfl⟩
  refine taken.act address (ha.letters _) hn (mild_delta s.manager q d) ?_ ?_ ?_
  · intro o p c hne
    rw [if_neg (fun h => hne h.1)]
  · intro p hp c
    have hget : (s.manager.move (.hear (.delta q d))).statistics.peers.get? p = _ := heard p
    rw [hget]
    by_cases hpq : p = q
    · subst hpq
      rw [if_pos ⟨rfl, hp⟩, Option.getD_some, Tally.get_bump]
      by_cases hcd : c = d
      · simp [hcd]
      · simp [hcd]
    · simp [hpq]
  · intro p u hp
    have hp : (s.manager.delta q d).statistics.peers.get? p = some u := hp
    rw [heard p] at hp
    split at hp
    next h =>
      cases hp
      refine ⟨h.1 ▸ station, d, ?_⟩
      rw [Tally.get_bump, if_pos rfl]
      omega
    next => exact hc.listed hn hp

/-- Whatever a letter says and whoever gets it, its arrival loses nothing. -/
theorem step_arrive (ha : g.Assembled) (hc : g.Conserves address nothing) (i : Nat) :
    (g.arrive address i).Assembled ∧ (g.arrive address i).Conserves address nothing := by
  unfold arrive
  split
  next l hl =>
    have lost : (∀ {o t}, g.stations.get? o = some t → ∀ p c, ¬ carries address p c t.address l) →
        ({ g with flying := g.flying.eraseIdx i } : Group α).Conserves address nothing := by
      intro none
      refine hc.take address hl fun ho p _ c => ?_
      rw [if_neg (none ho p c)]
      rfl
    unfold receive
    split
    next n notice hr hm =>
      obtain ⟨s, hn, ht⟩ := receiver?_eq_some hr
      rcases notice?_kinds address hm with ⟨q, long, free, rfl⟩ | ⟨q, d, rfl⟩
      · have dropped := lost fun _ p c h => by
          have := ((carries_iff address).mp h).2
          rw [hm] at this
          cases this
        have mild := mild_free s.manager q long free
        exact ⟨(ha.letters _).act address hn mild,
          dropped.act_recalling address (ha.letters _) hn mild (Recalls.updateFree s.manager q long free)⟩
      · exact ⟨(ha.letters _).act address hn (mild_delta s.manager q d), hc.hear address ha hl hn ht hm⟩
    next hnone =>
      refine ⟨ha.letters _, lost ?_⟩
      intro o t ho p c h
      obtain ⟨hat, hm⟩ := (carries_iff address).mp h
      cases hr : ({ g with flying := g.flying.eraseIdx i } : Group α).receiver? l.target with
      | none => exact receiver?_eq_none hr ho hat.symm
      | some n => exact hnone n _ hr hm
  next => exact ⟨ha, hc⟩

theorem step_acts (ha : g.Assembled) (hc : g.Conserves address nothing) (n : NodeId) {x : Move} (hx : x.stays) :
    (g.act address n x).Assembled ∧ (g.act address n x).Conserves address nothing := by
  cases hn : g.stations.get? n with
  | none =>
    unfold Group.act
    rw [hn]
    exact ⟨ha, hc⟩
  | some s =>
    have mild := mild_of_stays (ha.replicates hn) hx
    exact ⟨ha.act address hn mild,
      hc.act_recalling address ha hn mild (.move s.manager (Move.isUntold_of_stays hx))⟩

end Steps

theorem run_keeps {g : Group α} (ha : g.Assembled) (hc : g.Conserves address nothing) (hs : List Happening) :
    (g.run address hs).Assembled ∧ (g.run address hs).Conserves address nothing := by
  induction hs generalizing g with
  | nil => exact ⟨ha, hc⟩
  | cons h hs ih =>
    have next : (g.after address h).Assembled ∧ (g.after address h).Conserves address nothing := by
      cases h with
      | acts n x stays => exact step_acts address ha hc n stays
      | arrives i => exact step_arrive address ha hc i
    exact ih next.1 next.2

theorem Blank.conserves {g : Group α} (ha : g.Assembled) (hb : g.Blank) : g.Conserves address nothing := by
  refine ⟨?_, ?_, ?_⟩
  · intro o s p t ho hp hne c
    rw [known_of_ne (ha.sound ho) (by rw [(ha.named ho).1]; exact hne.symm), hb.peers ho, hb.own hp, pending, hb.flying]
    simp [nothing]
  · intro l p c a hl
    rw [hb.flying] at hl
    cases hl
  · intro o s q u ho hq
    rw [hb.peers ho] at hq
    cases hq

theorem sum_entries (t : Table NodeId (Tally Nat)) (c : Counter) :
    (t.entries.map fun e => e.2.get c).sum = ∑ p ∈ t.keys.toFinset, ((t.get? p).getD .zero).get c := by
  rw [List.sum_toFinset _ t.nodup_keys, Table.keys, List.map_map]
  refine congrArg List.sum (List.map_congr_left fun e he => ?_)
  rw [Function.comp_apply, Table.get?_eq_some_iff.mpr he]
  rfl

/-- An aggregate is the sum of what is known of every station, whoever forms it. -/
theorem Conserves.aggregate {g : Group α} (ha : g.Assembled) (hc : g.Conserves address nothing) {o : NodeId}
    {s : Station α} (ho : g.stations.get? o = some s) (c : Counter) :
    s.manager.statistics.aggregate.get c =
      ∑ p ∈ g.stations.keys.toFinset, (s.manager.statistics.known p).get c := by
  have sound := ha.sound ho
  have named := (ha.named ho).1
  have hself : o ∉ s.manager.statistics.peers.keys.toFinset := by
    intro h
    rw [List.mem_toFinset, Table.mem_keys_iff] at h
    exact (sound.counted o h).2 named.symm
  have hsub : insert o s.manager.statistics.peers.keys.toFinset ⊆ g.stations.keys.toFinset := by
    intro p hp
    rw [List.mem_toFinset, Table.mem_keys_iff]
    rcases Finset.mem_insert.mp hp with rfl | hp
    · rw [Table.contains, ho]
      rfl
    · rw [List.mem_toFinset, Table.mem_keys_iff] at hp
      obtain ⟨u, hu⟩ := Option.isSome_iff_exists.mp hp
      exact (hc.listed ho hu).1
  have hrest : ∀ p ∈ g.stations.keys.toFinset, p ∉ insert o s.manager.statistics.peers.keys.toFinset →
      (s.manager.statistics.known p).get c = 0 := by
    intro p _ hp
    rw [Finset.mem_insert, not_or, List.mem_toFinset, Table.mem_keys_iff, Bool.not_eq_true] at hp
    rw [known_of_ne sound (by rw [named]; exact hp.1), Table.get?_eq_none_iff.mpr hp.2]
    exact Tally.get_zero c
  have hpeers : ∀ p ∈ s.manager.statistics.peers.keys.toFinset,
      ((s.manager.statistics.peers.get? p).getD .zero).get c = (s.manager.statistics.known p).get c := by
    intro p hp
    rw [known_of_ne sound]
    rintro rfl
    exact hself (named ▸ hp)
  rw [Statistics.aggregate_get, sum_entries, ← Finset.sum_subset hsub hrest, Finset.sum_insert hself, Finset.sum_congr rfl hpeers,
    ← known_self sound, named]

/-- What is known of a station to which nothing is on its way is the station's own tally. -/
theorem Conserves.known_atRest {g : Group α} (ha : g.Assembled) (hc : g.Conserves address nothing)
    (rest : ∀ l ∈ g.flying, ∀ p c, notice? address l ≠ some (.delta p c)) {o p : NodeId} {s t : Station α}
    (ho : g.stations.get? o = some s) (hp : g.stations.get? p = some t) :
    s.manager.statistics.known p = t.manager.statistics.own := by
  by_cases hne : o = p
  · subst hne
    rw [ho] at hp
    cases hp
    rw [← known_self (ha.sound ho), (ha.named ho).1]
  · apply Tally.ext_get
    intro c
    have hold := hc.copies ho hp hne c
    have hz : g.pending address p c s.address = 0 :=
      List.countP_eq_zero.mpr fun l hl h => rest l hl p c ((carries_iff address).mp h).2
    rw [hz, nothing] at hold
    exact hold

/-- A node lists itself and everybody of whom it has counted something. -/
theorem Conserves.mem_nodes {g : Group α} (ha : g.Assembled) (hc : g.Conserves address nothing) {o : NodeId}
    {s : Station α} (ho : g.stations.get? o = some s) (p : NodeId) :
    p ∈ s.manager.statistics.nodes ↔ p = o ∨ s.manager.statistics.known p ≠ .zero := by
  have sound := ha.sound ho
  have named := (ha.named ho).1
  rw [Statistics.nodes, Table.mem_keys_iff, Statistics.tallies, Table.contains_insert, sound.self, named]
  by_cases hp : p = o
  · simp [hp]
  · rw [known_of_ne sound (by rw [named]; exact hp)]
    cases hq : s.manager.statistics.peers.get? p with
    | none => simp [hp, Table.get?_eq_none_iff.mp hq]
    | some u =>
      obtain ⟨_, c, hpos⟩ := hc.listed ho hq
      have hne : u ≠ .zero := by
        rintro rfl
        rw [Tally.get_zero] at hpos
        omega
      simp [hp, Table.contains, hq, hne]

/-- Once everything has arrived, a node reports its own tally, those of the others that are not zero, and no more. -/
theorem Conserves.get?_atRest {g : Group α} (ha : g.Assembled) (hc : g.Conserves address nothing)
    (rest : ∀ l ∈ g.flying, ∀ p c, notice? address l ≠ some (.delta p c)) {o : NodeId} {s : Station α}
    (ho : g.stations.get? o = some s) (p : NodeId) (u : Tally Nat) :
    s.manager.statistics.get? p = some u ↔
      ∃ t, g.stations.get? p = some t ∧ u = t.manager.statistics.own ∧ (p = o ∨ u ≠ .zero) := by
  have known : ∀ {t}, g.stations.get? p = some t →
      (s.manager.statistics.get? p).getD .zero = t.manager.statistics.own :=
    fun ht => hc.known_atRest address ha rest ho ht
  have own : s.manager.statistics.node = o := (ha.sound ho).self.trans (ha.named ho).1
  by_cases hp : p = o
  · subst hp
    have self : s.manager.statistics.get? p = some s.manager.statistics.own := if_pos own.symm
    rw [self, ho]
    constructor
    · rintro ⟨⟩
      exact ⟨s, rfl, rfl, .inl rfl⟩
    · rintro ⟨t, ⟨⟩, rfl, _⟩
      rfl
  · have heard : s.manager.statistics.get? p = s.manager.statistics.peers.get? p := if_neg (by rw [own]; exact hp)
    constructor
    · intro h
      -- a peer is listed by its first count, so that what is listed is not zero
      obtain ⟨station, c, counted⟩ := hc.listed ho (heard.symm.trans h)
      obtain ⟨t, ht⟩ := Option.isSome_iff_exists.mp station
      have same := known ht
      rw [h] at same
      refine ⟨t, ht, same, .inr ?_⟩
      rintro rfl
      rw [Tally.get_zero] at counted
      exact Nat.lt_irrefl 0 counted
    · rintro ⟨t, ht, rfl, h⟩
      have same := known ht
      cases hg : s.manager.statistics.get? p with
      | none =>
        rw [hg] at same
        exact absurd same.symm (h.resolve_left hp)
      | some v =>
        rw [hg] at same
        exact congrArg some same

/-- Among nodes that know each other and replicate, with all counters at zero and nothing on its way at first: after
whatever moves of theirs and arrivals in whatever order, the steps of one's tally that another has counted and those
on their way to it are all its steps. A node lists another one as soon as it has counted something of it. Once no
delta is on its way, each reports its own tally and those of the others that are not zero, all as they are, and all
form the same aggregate. -/
theorem run_replicates {g : Group α} (ha : g.Assembled) (hb : g.Blank) (hs : List Happening) :
    let g' := g.run address hs
    (∀ o s p t, g'.stations.get? o = some s → g'.stations.get? p = some t → o ≠ p → ∀ c,
      (s.manager.statistics.known p).get c + g'.pending address p c s.address = t.manager.statistics.own.get c) ∧
    (∀ o s, g'.stations.get? o = some s →
      ∀ p, p ∈ s.manager.statistics.nodes ↔ p = o ∨ s.manager.statistics.known p ≠ .zero) ∧
    ((∀ l ∈ g'.flying, ∀ p c, notice? address l ≠ some (.delta p c)) →
      (∀ o s, g'.stations.get? o = some s → ∀ p u, s.manager.statistics.get? p = some u ↔
        ∃ t, g'.stations.get? p = some t ∧ u = t.manager.statistics.own ∧ (p = o ∨ u ≠ .zero)) ∧
      ∀ o s o' s', g'.stations.get? o = some s → g'.stations.get? o' = some s' →
        (∀ p, g'.stations.contains p → s.manager.statistics.known p = s'.manager.statistics.known p) ∧
        s.manager.statistics.aggregate = s'.manager.statistics.aggregate) := by
  intro g'
  obtain ⟨ha', hc'⟩ := run_keeps address ha (hb.conserves address ha) hs
  refine ⟨?_, ?_, ?_⟩
  · intro o s p t ho hp hne c
    exact hc'.copies ho hp hne c
  · intro o s ho p
    exact hc'.mem_nodes address ha' ho p
  · intro rest
    refine ⟨fun o s ho => hc'.get?_atRest address ha' rest ho, ?_⟩
    intro o s o' s' ho ho'
    have same : ∀ p, g'.stations.contains p → s.manager.statistics.known p = s'.manager.statistics.known p := by
      intro p hp
      obtain ⟨t, ht⟩ := Option.isSome_iff_exists.mp hp
      rw [hc'.known_atRest address ha' rest ho ht, hc'.known_atRest address ha' rest ho' ht]
    refine ⟨same, Tally.ext_get fun c => ?_⟩
    rw [hc'.aggregate address ha' ho c, hc'.aggregate address ha' ho' c]
    refine Finset.sum_congr rfl fun p hp => ?_
    rw [same p (Table.mem_keys_iff.mp (List.mem_toFinset.mp hp))]

def trio : Group String :=
  gather ⟨"network", 0⟩ ⟨8, 4⟩ (.ofList [(⟨"a"⟩, "first"), (⟨"b"⟩, "second"), (⟨"c"⟩, "third")])

theorem trio_assembled : trio.Assembled := by
  have listed : ∀ p a, (Table.ofList [(⟨"a"⟩, "first"), (⟨"b"⟩, "second"), (⟨"c"⟩, "third")] : Table NodeId String).get? p =
      some a → p = ⟨"a"⟩ ∧ a = "first" ∨ p = ⟨"b"⟩ ∧ a = "second" ∨ p = ⟨"c"⟩ ∧ a = "third" := by
    intro p a h
    simp only [Table.ofList, List.foldl_cons, List.foldl_nil, Table.get?_insert, Table.get?_empty] at h
    split at h
    next hp => cases h; exact .inr (.inr ⟨hp, rfl⟩)
    next =>
      split at h
      next hp => cases h; exact .inr (.inl ⟨hp, rfl⟩)
      next =>
        split at h
        next hp => cases h; exact .inl ⟨hp, rfl⟩
        next => cases h
  refine gather_assembled ?_ ?_
  · intro p hp
    obtain ⟨a, ha⟩ := Option.isSome_iff_exists.mp hp
    rcases listed p a ha with ⟨rfl, _⟩ | ⟨rfl, _⟩ | ⟨rfl, _⟩ <;> decide
  · intro p q a hp hq
    rcases listed p a hp with ⟨rfl, rfl⟩ | ⟨rfl, rfl⟩ | ⟨rfl, rfl⟩ <;>
      rcases listed q _ hq with ⟨rfl, h⟩ | ⟨rfl, h⟩ | ⟨rfl, h⟩ <;> first | rfl | exact absurd h (by decide)

theorem run_replicates_trio :
    trio.Assembled ∧ trio.Blank ∧
      let g' := trio.run .string [.acts ⟨"a"⟩ (.settle .run (.ok none)) rfl, .acts ⟨"b"⟩ (.count .workFailed) rfl, .arrives 2]
      ∀ o s p t, g'.stations.get? o = some s → g'.stations.get? p = some t → o ≠ p → ∀ c,
        (s.manager.statistics.known p).get c + g'.pending .string p c s.address = t.manager.statistics.own.get c :=
  ⟨trio_assembled, gather_blank, (run_replicates .string trio_assembled gather_blank _).1⟩

/-- Nothing is on its way any more, and two nodes do not list the same. -/
theorem listings_differ :
    trio.Assembled ∧ trio.Blank ∧
      let g' := trio.run .string [.acts ⟨"a"⟩ (.count .workFailed) rfl, .arrives 0, .arrives 0]
      g'.flying = [] ∧ (g'.stations.get? ⟨"a"⟩).map (·.manager.statistics.nodes) = some [⟨"a"⟩] ∧
        (g'.stations.get? ⟨"b"⟩).map (·.manager.statistics.nodes) = some [⟨"a"⟩, ⟨"b"⟩] :=
  ⟨trio_assembled, gather_blank, by decide +kernel⟩

end Workshare.Group
