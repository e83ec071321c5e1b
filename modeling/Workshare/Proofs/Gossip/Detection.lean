import Workshare.Proofs.Gossip.Datagrams
import Workshare.Proofs.Gossip.OwnRecord
import Workshare.Proofs.Gossip.Reports

namespace Workshare

namespace Gossip

namespace Occurrence

def instant : Occurrence → Nat
  | .hears now _ _ => now
  | .looks now => now

/-- A sign of life of a member: it pings, or it answers a ping. -/
def contact? (n : NodeId) : Occurrence → Option Nat
  | .hears now _ (.ping sender _ _) => if n = sender then some now else none
  | .hears now _ (.ack sender _ _) => if n = sender then some now else none
  | .hears _ _ _ => none
  | .looks _ => none

end Occurrence

/-- Nothing happens before what has happened already. -/
def Timed (now : Nat) (os : List Occurrence) : Prop :=
  (now :: os.map (·.instant)).Pairwise (· ≤ ·)

def lastContact (n : NodeId) (seen : Nat) (os : List Occurrence) : Nat :=
  os.foldl (fun seen o => (o.contact? n).getD seen) seen

/-- Whenever a service looks at its members, this one has given a sign of life lately; and it is never said to be suspect,
dead or leaving. -/
structure Lively (n : NodeId) (seen : Nat) (os : List Occurrence) : Prop where
  prompt : ∀ past now, past ++ [.looks now] <+: os → now ≤ lastContact n seen past + suspectAfter
  undisputed : ∀ m ∈ messages os, m ≠ .leave n ∧ ∀ w ∈ m.tells n, w.state = .alive

theorem Occurrence.contact?_eq (n : NodeId) (o : Occurrence) :
    o.contact? n = none ∨ o.contact? n = some o.instant := by
  cases o with
  | looks now => exact .inl rfl
  | hears now src m =>
    unfold contact?
    cases m with
    | ping sender rpc i =>
      dsimp only
      split
      next => exact .inr rfl
      next => exact .inl rfl
    | ack sender i ms =>
      dsimp only
      split
      next => exact .inr rfl
      next => exact .inl rfl
    | join | leave | suspect | alive => exact .inl rfl

theorem Timed.later {now : Nat} {o : Occurrence} {os : List Occurrence} (h : Timed now (o :: os)) :
    now ≤ o.instant ∧ Timed o.instant os := by
  obtain ⟨first, rest⟩ := List.pairwise_cons.mp h
  exact ⟨first _ List.mem_cons_self, rest⟩

theorem Timed.start {now : Nat} {past os : List Occurrence} (h : Timed now os) (begins : past <+: os) : Timed now past :=
  h.sublist ((begins.sublist.map _).cons_cons now)

namespace Lively

variable {n : NodeId} {seen : Nat}

theorem start {past os : List Occurrence} (h : Lively n seen os) (begins : past <+: os) : Lively n seen past := by
  refine ⟨fun earlier now looks => h.prompt earlier now (looks.trans begins), fun m hm => h.undisputed m ?_⟩
  exact (begins.sublist.filterMap _).subset hm

theorem nil : Lively n seen [] := by
  refine ⟨fun past now looks => ?_, fun m hm => ?_⟩
  · cases List.append_eq_nil_iff.mp (List.prefix_nil.mp looks) with
    | intro _ none => cases none
  · cases hm

theorem cons_iff {o : Occurrence} {os : List Occurrence} : Lively n seen (o :: os) ↔
    (∀ now, o = .looks now → now ≤ seen + suspectAfter) ∧
    (∀ m, o.message? = some m → m ≠ .leave n ∧ ∀ w ∈ m.tells n, w.state = .alive) ∧
    Lively n ((o.contact? n).getD seen) os := by
  constructor
  · intro h
    refine ⟨fun now looks => ?_, fun m hm => h.undisputed m (mem_messages List.mem_cons_self m hm), ?_, fun m hm => ?_⟩
    · subst looks
      exact h.prompt [] now (List.prefix_append [_] os)
    · intro past now looks
      exact h.prompt (o :: past) now (List.cons_prefix_cons.mpr ⟨rfl, looks⟩)
    · exact h.undisputed m (((List.sublist_cons_self o os).filterMap _).subset hm)
  · rintro ⟨first, well, rest⟩
    refine ⟨fun past now looks => ?_, fun m hm => ?_⟩
    · cases past with
      | nil => exact first now (List.cons_prefix_cons.mp looks).1.symm
      | cons o' past =>
        obtain ⟨rfl, within⟩ := List.cons_prefix_cons.mp looks
        exact rest.prompt past now within
    · obtain ⟨o', ho', said⟩ := List.mem_filterMap.mp hm
      rcases List.mem_cons.mp ho' with rfl | ho'
      · exact well m said
      · exact rest.undisputed m (mem_messages ho' m said)

end Lively

/-- A member is heard of now, or nothing has changed since it was last heard of. -/
def Reheard (now : Nat) (k k' : Known) : Prop :=
  k'.lastSeen = some now ∨ k'.lastSeen = k.lastSeen

theorem Reheard.trans {now : Nat} {k k' k'' : Known} (h : Reheard now k k') (h' : Reheard now k' k'') :
    Reheard now k k'' := by
  rcases h' with fresh | same
  · exact .inl fresh
  · rcases h with fresh | old
    · exact .inl (same.trans fresh)
    · exact .inr (same.trans old)

section Changes

variable (now : Nat) (i : UInt64) (k : Known)

theorem lastSeen_heard : (Service.heard now i k).lastSeen = some now := by
  unfold Service.heard
  split <;> rfl

theorem lastSeen_answered : (Service.answered now i k).lastSeen = some now := by
  unfold Service.answered
  split <;> rfl

theorem lastSeen_suspected : (Service.suspected i k).lastSeen = k.lastSeen := by
  unfold Service.suspected
  split <;> rfl

theorem reheard_reconcile (m : Member) : Reheard now k (Service.reconcile now m k) := by
  unfold Service.reconcile
  split
  next => exact .inl rfl
  next =>
    split
    next => exact .inl rfl
    next => exact .inr rfl

theorem reheard_vouched : Reheard now k (Service.vouched now i k) := by
  unfold Service.vouched
  split
  next => exact .inl rfl
  next =>
    split
    next => exact .inl rfl
    next => exact .inr rfl

theorem reheard_judge : Reheard now k (Service.judge now k) := by
  unfold Service.judge
  split
  next => exact .inl rfl
  next =>
    split
    next => split <;> exact .inr rfl
    next => split <;> exact .inr rfl
    next => exact .inr rfl

end Changes

theorem reheard_foldl_told (now : Nat) (ms : List Member) (k : Known) :
    ∃ k', ms.foldl (told now) (some k) = some k' ∧ Reheard now k k' := by
  induction ms generalizing k with
  | nil => exact ⟨k, rfl, .inr rfl⟩
  | cons m ms ih =>
    obtain ⟨k', hk, later⟩ := ih (Service.reconcile now m k)
    exact ⟨k', hk, (reheard_reconcile now k m).trans later⟩

/-- A member of whom only others have told was last heard of when they did. -/
theorem lastSeen_foldl_told {now : Nat} {ms : List Member} {k : Known} (h : ms.foldl (told now) none = some k) :
    k.lastSeen = some now := by
  cases ms with
  | nil => cases h
  | cons m ms =>
    obtain ⟨k', hk, later⟩ := reheard_foldl_told now ms ⟨m, some now⟩
    cases hk.symm.trans h
    exact later.elim id id

namespace Occurrence

/-- Whoever answers is heard of, and then perhaps again with what is told along with the answer. -/
theorem reheard_acknowledged (now : Nat) (sender : NodeId) (i : UInt64) (n : NodeId) (k : Known) :
    ∃ q, (if n = sender then (some k).map (Service.answered now i) else some k) = some q ∧
      ∀ k', Reheard now q k' → k'.lastSeen = some now ∨ n ≠ sender ∧ k'.lastSeen = k.lastSeen := by
  split
  next =>
    have fresh := lastSeen_answered now i k
    exact ⟨_, rfl, fun k' h => .inl (h.elim id fun same => same.trans fresh)⟩
  next other => exact ⟨k, rfl, fun k' h => h.imp_right fun same => ⟨other, same⟩⟩

/-- A member that gives a sign of life is heard of; without one it may be heard of all the same. -/
theorem reheard_record (o : Occurrence) (self n : NodeId) (k : Known) :
    ∃ k', o.record self n (some k) = some k' ∧
      (k'.lastSeen = some o.instant ∨ o.contact? n = none ∧ k'.lastSeen = k.lastSeen) := by
  have silently {k' : Known} (silent : o.contact? n = none) (h : Reheard o.instant k k') :
      k'.lastSeen = some o.instant ∨ o.contact? n = none ∧ k'.lastSeen = k.lastSeen :=
    h.imp_right fun same => ⟨silent, same⟩
  cases o with
  | looks now =>
    rw [record]
    split
    next => exact ⟨k, rfl, silently rfl (.inr rfl)⟩
    next => exact ⟨_, rfl, silently rfl (reheard_judge now k)⟩
  | hears now src m =>
    rw [record]
    unfold GossipMessage.record
    cases m with
    | ping sender rpc i =>
      dsimp only
      split
      next => exact ⟨_, rfl, .inl (lastSeen_heard now i k)⟩
      next other => exact ⟨k, rfl, silently (if_neg other) (.inr rfl)⟩
    | ack sender i ms =>
      dsimp only
      -- who sends an Ack has been in contact, whatever the list says of it afterwards
      obtain ⟨q, hq, answered⟩ := reheard_acknowledged now sender i n k
      rw [hq]
      have later {k' : Known} (h : Reheard now q k') : k'.lastSeen = some now ∨
          (hears now src (.ack sender i ms)).contact? n = none ∧ k'.lastSeen = k.lastSeen :=
        (answered k' h).imp_right fun old => ⟨if_neg old.1, old.2⟩
      split
      next => exact ⟨q, rfl, later (.inr rfl)⟩
      next =>
        obtain ⟨k', hk, told⟩ := reheard_foldl_told now (about n ms) q
        exact ⟨k', hk, later told⟩
    | join node =>
      dsimp only
      split
      next => exact ⟨_, rfl, .inl rfl⟩
      next => exact ⟨k, rfl, silently rfl (.inr rfl)⟩
    | leave node =>
      dsimp only
      split
      next => exact ⟨_, rfl, silently rfl (.inr rfl)⟩
      next => exact ⟨k, rfl, silently rfl (.inr rfl)⟩
    | suspect node i =>
      dsimp only
      split
      next => exact ⟨_, rfl, silently rfl (.inr (lastSeen_suspected i k))⟩
      next => exact ⟨k, rfl, silently rfl (.inr rfl)⟩
    | alive node i =>
      dsimp only
      split
      next => exact ⟨_, rfl, silently rfl (reheard_vouched now i k)⟩
      next => exact ⟨k, rfl, silently rfl (.inr rfl)⟩

theorem lastSeen_record_new {o : Occurrence} {self n : NodeId} {k : Known} (h : o.record self n none = some k) :
    k.lastSeen = some o.instant := by
  cases o with
  | looks now => rw [record, Option.map_none, ite_self] at h; cases h
  | hears now src m =>
    rw [record] at h
    unfold GossipMessage.record at h
    cases m with
    | ping sender rpc i =>
      dsimp only at h
      split at h <;> cases h
      rfl
    | ack sender i ms =>
      dsimp only at h
      rw [Option.map_none, ite_self] at h
      split at h
      next => cases h
      next => exact lastSeen_foldl_told h
    | join node =>
      dsimp only at h
      split at h <;> cases h
      rfl
    | leave node => dsimp only at h; rw [Option.map_none, ite_self] at h; cases h
    | suspect node i => dsimp only at h; rw [Option.map_none, ite_self] at h; cases h
    | alive node i => dsimp only at h; rw [Option.map_none, ite_self] at h; cases h

end Occurrence

theorem weigh_alive {r : Report} {ws : List Report} (live : r.state = .alive) (all : ∀ w ∈ ws, w.state = .alive) :
    ∃ r', weigh (some r) ws = some r' ∧ r'.state = .alive := by
  obtain ⟨r', hr, outcome⟩ := weigh_known r ws
  refine ⟨r', hr, ?_⟩
  rcases List.mem_cons.mp outcome.mem with rfl | told
  · exact live
  · exact all r' told

end Gossip

open Gossip in
/-- Nobody falls from being alive by a message that says nothing else of them. -/
theorem GossipMessage.report_alive {m : GossipMessage} {n : NodeId} {r : Report} (live : r.state = .alive)
    (stays : m ≠ .leave n) (well : ∀ w ∈ m.tells n, w.state = .alive) (self : NodeId) :
    ∃ r', m.report self n (some r) = some r' ∧ r'.state = .alive := by
  unfold report
  unfold tells at well
  cases m with
  | ping sender rpc i =>
    dsimp only
    split
    next =>
      refine ⟨_, rfl, ?_⟩
      unfold Option.elim refreshed
      dsimp only
      split
      next => rfl
      next => exact live
    next => exact ⟨r, rfl, live⟩
  | ack sender i ms =>
    dsimp only at well ⊢
    have announced : ∃ q, (if n = sender then (some r).map (raised i) else some r) = some q ∧ q.state = .alive := by
      split
      next =>
        refine ⟨_, rfl, ?_⟩
        unfold raised
        split <;> exact live
      next => exact ⟨r, rfl, live⟩
    obtain ⟨q, hq, alive⟩ := announced
    rw [hq]
    split
    next => exact ⟨q, rfl, alive⟩
    next => exact weigh_alive alive fun w hw => well w (List.mem_append_right _ hw)
  | join node =>
    dsimp only at well ⊢
    split
    next named =>
      rw [if_pos named] at well
      exact ⟨node.report, rfl, well _ (List.mem_singleton_self _)⟩
    next => exact ⟨r, rfl, live⟩
  | leave node =>
    dsimp only
    split
    next named => exact absurd (congrArg leave named.symm) stays
    next => exact ⟨r, rfl, live⟩
  | suspect node i =>
    dsimp only at well ⊢
    split
    next counts =>
      rw [if_pos counts.1] at well
      -- such a suspicion would itself be a word that is not Alive
      cases well _ (List.mem_singleton_self _)
    next => exact ⟨r, rfl, live⟩
  | alive node i =>
    dsimp only
    split
    next =>
      have word : ∀ w ∈ [(⟨.alive, i⟩ : Report)], w.state = .alive := by simp
      exact weigh_alive live word
    next => exact ⟨r, rfl, live⟩

namespace Gossip.Service

/-- What an occurrence leaves of a service. The message that stops it from hearing more changes nothing, and the looks at the
members go on. -/
def next (s : Service) (o : Occurrence) : Service :=
  match s.after o with
  | .ok step => step.service
  | .error _ => s

def course (s : Service) (os : List Occurrence) : Service :=
  os.foldl next s

theorem next_cases (s : Service) (o : Occurrence) :
    (∃ step, s.after o = .ok step ∧ s.next o = step.service) ∨
      s.next o = s ∧ ∃ now src, o = .hears now src (lastWord s.self.id) := by
  unfold next
  cases ho : s.after o with
  | ok step => exact .inl ⟨step, rfl, rfl⟩
  | error a =>
    refine .inr ⟨rfl, ?_⟩
    by_cases last : ∃ now src, o = .hears now src (lastWord s.self.id)
    · exact last
    · simp only [not_exists] at last
      obtain ⟨step, hs⟩ := (s.after_isOk o).mpr last
      cases ho.symm.trans hs

/-- A run that comes to its end is the course. -/
theorem course_of_run {s t : Service} {os : List Occurrence} (h : s.run os = .ok t) : s.course os = t := by
  induction os generalizing s with
  | nil => cases h; rfl
  | cons o os ih =>
    obtain ⟨step, ho, h⟩ := exists_of_run_cons h
    have first : s.next o = step.service := by rw [next, ho]
    exact (congrArg (·.course os) first).trans (ih h)

theorem self_next (s : Service) (o : Occurrence) : (s.next o).self = s.self := by
  rcases s.next_cases o with ⟨step, h, e⟩ | ⟨e, _⟩
  · rw [e]
    exact (after_eq h).1
  · rw [e]

theorem get?_next (s : Service) (o : Occurrence) (n : NodeId) :
    (s.next o).get? n = o.record s.self.id n (s.get? n) := by
  rcases s.next_cases o with ⟨step, h, e⟩ | ⟨e, now, src, rfl⟩
  · rw [e]
    exact (after_eq h).2.2 n
  · have untouched : ¬ (n = s.self.id ∧ n ≠ s.self.id) := fun both => both.2 both.1
    rw [e]
    exact (if_neg untouched).symm

theorem Shown.next {s : Service} (hs : s.Shown) (o : Occurrence) : (s.next o).Shown := by
  rcases s.next_cases o with ⟨step, h, e⟩ | ⟨e, _⟩
  · rw [e]
    exact hs.after h
  · rw [e]
    exact hs

theorem course_concat (s : Service) (os : List Occurrence) (o : Occurrence) :
    s.course (os ++ [o]) = (s.course os).next o := by
  rw [course, List.foldl_append]
  rfl

/-- At an instant: the members that are alive are published, and every one was heard of by then. -/
structure Current (id : NodeId) (now : Nat) (s : Service) : Prop where
  own : s.self.id = id
  shown : s.Shown
  heard : ∀ n k, s.get? n = some k → ∃ seen, k.lastSeen = some seen ∧ seen ≤ now

theorem Current.start (id : NodeId) (gossipAddr rpcAddr : SocketAddress) (now : Nat) :
    (start id gossipAddr rpcAddr now).Current id now := by
  refine ⟨rfl, Shown.start id gossipAddr rpcAddr now, fun n k hk => ⟨now, ?_, Nat.le_refl now⟩⟩
  rw [get?, Service.start, Table.get?_insert] at hk
  split at hk <;> cases hk
  rfl

theorem Current.next {id : NodeId} {now : Nat} {s : Service} (h : s.Current id now) {o : Occurrence}
    (later : now ≤ o.instant) : (s.next o).Current id o.instant := by
  refine ⟨(congrArg Member.id (s.self_next o)).trans h.own, h.shown.next o, fun n k' hk' => ?_⟩
  rw [get?_next] at hk'
  cases hk : s.get? n with
  | none =>
    rw [hk] at hk'
    exact ⟨_, Occurrence.lastSeen_record_new hk', Nat.le_refl _⟩
  | some k =>
    obtain ⟨k'', hk'', fresh | ⟨_, old⟩⟩ := o.reheard_record s.self.id n k
    · rw [hk, hk''] at hk'
      cases hk'
      exact ⟨_, fresh, Nat.le_refl _⟩
    · rw [hk, hk''] at hk'
      cases hk'
      obtain ⟨seen, heard, past⟩ := h.heard n k hk
      exact ⟨seen, old.trans heard, Nat.le_trans past later⟩

theorem Current.course {id : NodeId} {now : Nat} {s : Service} (h : s.Current id now) {past os : List Occurrence}
    (timed : Timed now (past ++ os)) : ∃ later, (s.course past).Current id later ∧ Timed later os := by
  induction past generalizing now s with
  | nil => exact ⟨now, h, timed⟩
  | cons o past ih =>
    obtain ⟨later, rest⟩ := Timed.later timed
    exact ih (h.next later) rest

/-- A member is alive, and was heard of no earlier than it has given a sign of life. -/
def Sees (s : Service) (n : NodeId) (seen now : Nat) : Prop :=
  ∃ k heard, s.get? n = some k ∧ k.member.state = .alive ∧ k.lastSeen = some heard ∧ seen ≤ heard ∧ heard ≤ now

theorem judge_prompt {now heard : Nat} {k : Known} (live : k.member.state = .alive) (last : k.lastSeen = some heard)
    (prompt : now ≤ heard + suspectAfter) : judge now k = k := by
  have short : ¬ suspectAfter < now - heard := by omega
  unfold judge
  rw [last]
  dsimp only
  rw [live]
  exact if_neg short

theorem Sees.next {s : Service} {n : NodeId} {seen now : Nat} (h : s.Sees n seen now) (peer : n ≠ s.self.id)
    {o : Occurrence} {os : List Occurrence} (later : now ≤ o.instant) (lively : Lively n seen (o :: os)) :
    (s.next o).Sees n ((o.contact? n).getD seen) o.instant := by
  obtain ⟨k, heard, hk, live, last, since, past⟩ := h
  cases o with
  | looks now' =>
    have prompt := (Lively.cons_iff.mp lively).1 now' rfl
    refine ⟨k, heard, ?_, live, last, since, Nat.le_trans past later⟩
    rw [get?_next, hk, Occurrence.record, if_neg peer, Option.map_some,
      judge_prompt live last (Nat.le_trans prompt (Nat.add_le_add_right since _))]
  | hears now' src m =>
    obtain ⟨stays, well⟩ := (Lively.cons_iff.mp lively).2.1 m rfl
    obtain ⟨r', hr, alive⟩ := GossipMessage.report_alive (r := k.report) live stays well s.self.id
    obtain ⟨k', hk', heard'⟩ := (Occurrence.hears now' src m).reheard_record s.self.id n k
    have reported := report_record s.self.id now' src n m (some k)
    rw [Option.map_some, hr] at reported
    have same : k'.report = r' := by
      have there : m.record s.self.id now' src n (some k) = some k' := hk'
      rw [there] at reported
      exact Option.some.inj reported
    have found : (s.next (.hears now' src m)).get? n = some k' := by rw [get?_next, hk, hk']
    have alive' : k'.member.state = .alive := (congrArg Report.state same).trans alive
    have byNow : ((Occurrence.hears now' src m).contact? n).getD seen ≤ now' := by
      rcases (Occurrence.hears now' src m).contact?_eq n with silent | contact
      · rw [silent]
        exact Nat.le_trans since (Nat.le_trans past later)
      · rw [contact]
        exact Nat.le_refl _
    rcases heard' with fresh | ⟨silent, old⟩
    · exact ⟨k', now', found, alive', fresh, byNow, Nat.le_refl _⟩
    · rw [silent]
      exact ⟨k', heard, found, alive', old.trans last, since, Nat.le_trans past later⟩

theorem Sees.course {s : Service} {n : NodeId} {seen now : Nat} (h : s.Sees n seen now) (peer : n ≠ s.self.id)
    {os : List Occurrence} (timed : Timed now os) (lively : Lively n seen os) :
    ∃ seen later, (s.course os).Sees n seen later := by
  induction os generalizing s seen now with
  | nil => exact ⟨seen, now, h⟩
  | cons o os ih =>
    obtain ⟨later, rest⟩ := timed.later
    have other : n ≠ (s.next o).self.id := by rw [s.self_next o]; exact peer
    exact ih (h.next peer later lively) other rest (Lively.cons_iff.mp lively).2.2

/-- What a look leaves: whoever is alive was heard of lately, whoever is still suspect was heard of not long ago, and nobody
has died who was alive. -/
structure Timely (now : Nat) (s t : Service) : Prop where
  alive : ∀ n k', n ≠ s.self.id → t.get? n = some k' → k'.member.state = .alive →
    ∃ seen, k'.lastSeen = some seen ∧ now ≤ seen + suspectAfter
  suspect : ∀ n k k', n ≠ s.self.id → s.get? n = some k → k.member.state = .suspect → t.get? n = some k' →
    k'.member.state = .suspect → ∃ seen, k'.lastSeen = some seen ∧ now ≤ seen + deadAfter
  gradual : ∀ n k k', s.get? n = some k → k.member.state = .alive → t.get? n = some k' → k'.member.state ≠ .dead

section Judge

variable {now : Nat} {k : Known}

theorem judge_alive (live : (judge now k).member.state = .alive) :
    ∃ seen, (judge now k).lastSeen = some seen ∧ now ≤ seen + suspectAfter := by
  unfold judge at live ⊢
  split at live
  next => exact ⟨now, rfl, Nat.le_add_right _ _⟩
  next seen last =>
    split at live
    next was =>
      split at live
      next => cases live
      next short =>
        rw [if_neg short]
        exact ⟨seen, last, by omega⟩
    next was =>
      split at live
      next => cases live
      next => cases was.symm.trans live
    next was => cases was.symm.trans live

theorem judge_suspect_still (was : k.member.state = .suspect) (still : (judge now k).member.state = .suspect) :
    ∃ seen, (judge now k).lastSeen = some seen ∧ now ≤ seen + deadAfter := by
  unfold judge at still ⊢
  cases last : k.lastSeen with
  | none => exact ⟨now, rfl, Nat.le_add_right _ _⟩
  | some seen =>
    rw [last, was] at still
    rw [was]
    dsimp only at still ⊢
    split at still
    next => cases still
    next short =>
      rw [if_neg short]
      exact ⟨seen, last, by omega⟩

theorem judge_gradual (was : k.member.state = .alive) : (judge now k).member.state ≠ .dead := by
  unfold judge
  split
  next => rw [was]; exact MemberState.noConfusion
  next =>
    rw [was]
    dsimp only
    split
    next => exact MemberState.noConfusion
    next => rw [was]; exact MemberState.noConfusion

end Judge

theorem timely_next (s : Service) (now : Nat) : Timely now s (s.next (.looks now)) := by
  have judged {n : NodeId} {k' : Known} (peer : n ≠ s.self.id) (hk' : (s.next (.looks now)).get? n = some k') :
      ∃ k, s.get? n = some k ∧ judge now k = k' := by
    rw [get?_next, Occurrence.record, if_neg peer] at hk'
    exact Option.map_eq_some_iff.mp hk'
  refine ⟨fun n k' peer hk' live => ?_, fun n k k' peer hk was hk' still => ?_, fun n k k' hk was hk' => ?_⟩
  · obtain ⟨k, _, rfl⟩ := judged peer hk'
    exact judge_alive live
  · obtain ⟨k₀, hk₀, rfl⟩ := judged peer hk'
    cases hk.symm.trans hk₀
    exact judge_suspect_still was still
  -- the own entry is not judged
  · by_cases own : n = s.self.id
    · rw [get?_next, Occurrence.record, if_pos own, hk] at hk'
      cases hk'
      rw [was]
      exact MemberState.noConfusion
    · obtain ⟨k₀, hk₀, rfl⟩ := judged own hk'
      cases hk.symm.trans hk₀
      exact judge_gradual was

/-- Take a service at any time, and let time go on from there. A peer that is alive stays alive and published
throughout if, at every look at the members, its last sign of life (or what was known of one at first) is at most
five seconds old, and no message says that it is suspect, dead or leaving. And right after every look the peers
that are alive were heard of in the last five seconds, the suspects that were suspect before in the last ten, and
nobody has gone from alive to dead. The states are those of the runs that come to their end. -/
theorem detection_timely {id : NodeId} {gossipAddr rpcAddr : SocketAddress} {begun : Nat} {earlier os : List Occurrence}
    (timed : Timed begun (earlier ++ os)) :
    let s := (start id gossipAddr rpcAddr begun).course earlier
    (∀ n k, s.get? n = some k → ∃ seen, k.lastSeen = some seen ∧
      (n ≠ id → k.member.state = .alive → Lively n seen os → ∀ past, past <+: os →
        ∃ k', (s.course past).get? n = some k' ∧ k'.member.state = .alive ∧
          (n, k'.member.rpcAddr) ∈ (s.course past).requestView)) ∧
    (∀ past now, past ++ [.looks now] <+: os → Timely now (s.course past) (s.course (past ++ [.looks now]))) ∧
    ∀ past t, past <+: os → (start id gossipAddr rpcAddr begun).run (earlier ++ past) = .ok t → s.course past = t := by
  intro s
  obtain ⟨τ, current, rest⟩ := (Current.start id gossipAddr rpcAddr begun).course timed
  refine ⟨fun n k hk => ?_, fun past now _ => ?_, fun past t _ ends => ?_⟩
  · obtain ⟨seen, last, by_τ⟩ := current.heard n k hk
    refine ⟨seen, last, fun peer live lively past begins => ?_⟩
    have sees : s.Sees n seen τ := ⟨k, seen, hk, live, last, Nat.le_refl _, by_τ⟩
    have other : n ≠ s.self.id := current.own.symm ▸ peer
    obtain ⟨_, _, k', _, hk', live', _⟩ := sees.course other (rest.start begins) (lively.start begins)
    have start : Timed τ (past ++ []) := by rw [List.append_nil]; exact rest.start begins
    obtain ⟨later, then', _⟩ := current.course start
    refine ⟨k', hk', live', ?_⟩
    rw [then'.shown.shown, mem_alive then'.shown.keyed]
    exact ⟨k', hk', live', rfl⟩
  · rw [course_concat]
    exact timely_next _ now
  · rw [← course_of_run ends]
    exact List.foldl_append.symm

def greeting : List Occurrence :=
  [.hears 1 (.v4 2 7946) (.join ⟨⟨"b"⟩, .v4 2 7946, .v4 2 7947, .alive, 1⟩),
    .hears 1 (.v4 3 7946) (.join ⟨⟨"c"⟩, .v4 3 7946, .v4 3 7947, .alive, 1⟩)]

/-- One peer is heard from every five or six seconds, and tells of the other one, which is silent. -/
def vigil : List Occurrence :=
  [.hears 4000 (.v4 2 7946) (.ping ⟨"b"⟩ (.v4 2 7947) 1), .looks 5000, .hears 6000 (.v4 2 7946) (.suspect ⟨"c"⟩ 1),
    .looks 9000, .hears 10000 (.v4 2 7946) (.ack ⟨"b"⟩ 1 [⟨⟨"c"⟩, .v4 3 7946, .v4 3 7947, .suspect, 1⟩]), .looks 15000]

theorem lively_vigil : Lively ⟨"b"⟩ 1 vigil := by
  simp [vigil, Lively.cons_iff, Lively.nil, Occurrence.message?, Occurrence.contact?, GossipMessage.tells, said, about,
    suspectAfter]

theorem detection_timely_vigil :
    Timed 0 (greeting ++ vigil) ∧ Lively ⟨"b"⟩ 1 vigil ∧
    let s := (start ⟨"a"⟩ (.v4 1 7946) (.v4 1 7947) 0).course greeting
    (∃ k, (s.course vigil).get? ⟨"b"⟩ = some k ∧ k.member.state = .alive ∧
      (⟨"b"⟩, k.member.rpcAddr) ∈ (s.course vigil).requestView) ∧
    (∃ k, (s.course vigil).get? ⟨"c"⟩ = some k ∧ k.member.state = .dead) ∧
    Timely 15000 (s.course vigil.dropLast) (s.course vigil) := by
  have timed : Timed 0 (greeting ++ vigil) := by unfold Timed; decide
  refine ⟨timed, lively_vigil, ?_⟩
  obtain ⟨stays, looks, _⟩ := @detection_timely ⟨"a"⟩ (.v4 1 7946) (.v4 1 7947) 0 greeting vigil timed
  obtain ⟨seen, last, lasts⟩ := stays ⟨"b"⟩ _ rfl
  cases last
  exact ⟨lasts (by decide) rfl lively_vigil vigil (List.prefix_refl _), ⟨_, rfl, rfl⟩,
    looks vigil.dropLast 15000 (List.prefix_refl _)⟩

end Gossip.Service

end Workshare
