import Mathlib.Algebra.Order.BigOperators.Group.List
import Mathlib.Algebra.Order.Ring.Nat
import Workshare.Proofs.Gossip.Datagrams
import Workshare.Proofs.Gossip.Suspicions
import Workshare.Proofs.Wire.Sizes

namespace Workshare

open Gossip Gossip.Service

namespace GossipMessage

def names (self : NodeId) : GossipMessage → List NodeId
  | .ping sender _ _ => [sender]
  | .ack _ _ ms => (ms.map (·.id)).filter (· ≠ self)
  | .join node => [node.id]
  | .leave _ => []
  | .suspect _ _ => []
  | .alive _ _ => []

theorem isSome_foldl_told (now : Nat) (ms : List Member) (r : Option Known) :
    (ms.foldl (told now) r).isSome ↔ r.isSome ∨ ms ≠ [] := by
  induction ms generalizing r with
  | nil => simp
  | cons m ms ih =>
    rw [List.foldl_cons, ih]
    simp [told]

/-- Nobody is forgotten, and nobody gets known without being named. -/
theorem isSome_record (m : GossipMessage) (self : NodeId) (now : Nat) (src : SocketAddress) (n : NodeId)
    (r : Option Known) : (m.record self now src n r).isSome ↔ r.isSome ∨ n ∈ m.names self := by
  have kept (c : Prop) [Decidable c] (f : Known → Known) : (if c then r.map f else r).isSome = r.isSome := by
    split
    next => exact Option.isSome_map
    next => rfl
  unfold record names
  cases m with
  | ping sender rpc i =>
    dsimp only
    rw [List.mem_singleton]
    split
    next named => simp [named]
    next strange => simp [strange]
  | ack sender i ms =>
    dsimp only
    split
    next own => rw [kept]; simp [own]
    next other =>
      rw [isSome_foldl_told, kept]
      simp [about, List.filter_eq_nil_iff, other]
  | join node =>
    dsimp only
    rw [List.mem_singleton]
    split
    next named => simp [named]
    next strange => simp [strange]
  | leave node => rw [kept]; simp
  | suspect node i => rw [kept]; simp
  | alive node i => rw [kept]; simp

end GossipMessage

namespace Gossip

def Occurrence.names (self : NodeId) : Occurrence → List NodeId
  | .hears _ _ m => m.names self
  | .looks _ => []

namespace Service

theorem mem_ids {s : Service} (hs : s.Keyed) {n : NodeId} : n ∈ s.all.map (·.id) ↔ (s.get? n).isSome := by
  rw [ids_all hs]
  exact Table.mem_keys_iff

theorem nodup_ids {s : Service} (hs : s.Keyed) : (s.all.map (·.id)).Nodup := by
  rw [ids_all hs]
  exact s.members.nodup_keys

theorem Keyed.run {s t : Service} (hs : s.Keyed) {os : List Occurrence} (h : s.run os = .ok t) : t.Keyed :=
  run_keeps (P := Keyed) (fun _ _ _ _ hu ho => hu.after ho) hs h

theorem isSome_after {s : Service} {o : Occurrence} {step : Step} (h : s.after o = .ok step) (n : NodeId) :
    (step.service.get? n).isSome ↔ (s.get? n).isSome ∨ n ∈ o.names s.self.id := by
  rw [(after_eq h).2.2 n]
  cases o with
  | hears now src m => exact m.isSome_record s.self.id now src n (s.get? n)
  | looks now =>
    unfold Occurrence.record Occurrence.names
    dsimp only
    split
    next => simp
    next => simp

theorem isSome_run {s t : Service} {os : List Occurrence} (h : s.run os = .ok t) (n : NodeId) :
    (t.get? n).isSome ↔ (s.get? n).isSome ∨ n ∈ os.flatMap (·.names s.self.id) := by
  induction os generalizing s with
  | nil =>
    cases h
    simp
  | cons o os ih =>
    obtain ⟨step, ho, h⟩ := exists_of_run_cons h
    rw [ih h, isSome_after ho, (after_eq ho).1, List.flatMap_cons, List.mem_append, or_assoc]

theorem isSome_start (id : NodeId) (gossipAddr rpcAddr : SocketAddress) (begun : Nat) (n : NodeId) :
    ((start id gossipAddr rpcAddr begun).get? n).isSome ↔ n = id := by
  rw [get?, start, Table.get?_insert]
  split
  next own => simp [own]
  next other => simp [other]

section Answers

variable (s : Service) (now : Nat) (src : SocketAddress) (sender : NodeId) (rpc : SocketAddress) (i : UInt64)

def listed : List Member :=
  (s.onPing now src sender rpc i).1.all

theorem onPing_answer : (s.onPing now src sender rpc i).2 =
    [⟨src, .ack s.self.id s.incarnation (s.listed now src sender rpc i)⟩] := by
  obtain ⟨own, same, _⟩ := onPing_eq s now src sender rpc i
  rw [← own, ← same]
  rfl

variable {s}

theorem Keyed.onPing (hs : s.Keyed) : (s.onPing now src sender rpc i).1.Keyed := by
  intro n k hk
  rw [(onPing_eq s now src sender rpc i).2.2] at hk
  exact id_record (hs n) hk

theorem nodup_listed (hs : s.Keyed) : ((s.listed now src sender rpc i).map (·.id)).Nodup :=
  nodup_ids (hs.onPing now src sender rpc i)

theorem mem_listed (hs : s.Keyed) (n : NodeId) :
    n ∈ (s.listed now src sender rpc i).map (·.id) ↔ (s.get? n).isSome ∨ n = sender := by
  refine (mem_ids (hs.onPing now src sender rpc i)).trans ?_
  rw [(onPing_eq s now src sender rpc i).2.2, GossipMessage.isSome_record]
  exact or_congr_right List.mem_singleton

end Answers

/-- What the answers of a service take at the least, wherever its members are. -/
def leastSize (s : Service) : Nat :=
  28 + Utf8.size s.self.id.text + ((s.all.map (·.id)).map fun n => 40 + Utf8.size n.text).sum

theorem sum_le_of_subset {α : Type} (f : α → Nat) {xs ys : List α} (once : xs.Nodup) (sub : xs ⊆ ys) :
    (xs.map f).sum ≤ (ys.map f).sum := by
  obtain ⟨zs, perm, sublist⟩ := List.subperm_of_subset once sub
  calc (xs.map f).sum = (zs.map f).sum := (perm.map f).sum_eq.symm
    _ ≤ (ys.map f).sum := (sublist.map f).sum_le_sum fun _ _ => Nat.zero_le _

theorem sum_sizes (ms : List Member) :
    ((ms.map (·.id)).map fun n => 40 + Utf8.size n.text).sum ≤ (ms.map (·.size)).sum := by
  rw [List.map_map]
  refine List.sum_le_sum fun m _ => ?_
  have := m.gossipAddr.size_bounds
  have := m.rpcAddr.size_bounds
  unfold Member.size
  dsimp only [Function.comp_apply]
  omega

/-- However long ago somebody was listed, an answer now has to list them again. -/
theorem leastSize_le {s t : Service} (hs : s.Keyed) {os : List Occurrence} (h : s.run os = .ok t) (now : Nat)
    (src : SocketAddress) (sender : NodeId) (rpc : SocketAddress) (i : UInt64) :
    s.leastSize ≤ (GossipMessage.codec.write
      (.ack t.self.id t.incarnation (t.listed now src sender rpc i))).length := by
  have sub : s.all.map (·.id) ⊆ (t.listed now src sender rpc i).map (·.id) := by
    intro n hn
    rw [mem_listed now src sender rpc i (hs.run h)]
    exact .inl ((isSome_run h n).mpr (.inl ((mem_ids hs).mp hn)))
  have sum := sum_le_of_subset (fun n : NodeId => 40 + Utf8.size n.text) (nodup_ids hs) sub
  have more := sum_sizes (t.listed now src sender rpc i)
  rw [GossipMessage.length_ack, self_run h]
  unfold leastSize
  exact Nat.add_le_add_left (Nat.le_trans sum more) _

/-- An answer lists everybody who was ever named, once each, and takes 28 bytes, the id of the node and what each
member takes. Hence among nodes with ids of 36 bytes and IPv4 addresses, as nodes give themselves, there is room
for it exactly as long as no more than 861 were ever named; and once those who were named take more than a
datagram holds, no ping is answered any more. -/
theorem answer_size {id : NodeId} {gossipAddr rpcAddr : SocketAddress} {begun : Nat} {os : List Occurrence} {s : Service}
    (h : (start id gossipAddr rpcAddr begun).run os = .ok s) (now : Nat) (src : SocketAddress) (sender : NodeId)
    (rpc : SocketAddress) (i : UInt64) :
    let ms := s.listed now src sender rpc i
    (s.onPing now src sender rpc i).2 = [⟨src, .ack id s.incarnation ms⟩] ∧
    (ms.map (·.id)).Nodup ∧ (∀ n, n ∈ ms.map (·.id) ↔ n = id ∨ n = sender ∨ n ∈ os.flatMap (·.names id)) ∧
    (GossipMessage.codec.write (.ack id s.incarnation ms)).length = 28 + Utf8.size id.text + (ms.map (·.size)).sum ∧
    (Utf8.size id.text = 36 → (∀ m ∈ ms, m.size = 76) →
      ((GossipMessage.codec.write (.ack id s.incarnation ms)).length ≤ Frame.maxSize ↔ ms.length ≤ 861)) ∧
    (Frame.maxSize < s.leastSize → ∀ os' t, s.run os' = .ok t → ∀ now' src' sender' rpc' i',
      ∀ l ∈ (t.onPing now' src' sender' rpc' i').2, Frame.maxSize < (GossipMessage.codec.write l.message).length) := by
  intro ms
  have keyed : s.Keyed := (Keyed.start id gossipAddr rpcAddr begun).run h
  have own : s.self.id = id := congrArg Member.id (self_run h)
  have size := GossipMessage.length_ack id s.incarnation ms
  refine ⟨own ▸ s.onPing_answer now src sender rpc i, nodup_listed now src sender rpc i keyed, fun n => ?_, size,
    fun long each => ?_, fun full os' t later now' src' sender' rpc' i' l hl => ?_⟩
  · rw [mem_listed now src sender rpc i keyed, isSome_run h, isSome_start, or_assoc, or_comm (b := n = sender)]
    rfl
  · have alike : ms.map (·.size) = List.replicate ms.length 76 :=
      (List.map_congr_left each).trans List.map_const'
    rw [size, alike, List.sum_replicate, long]
    show 28 + 36 + ms.length * 76 ≤ 65507 ↔ ms.length ≤ 861
    omega
  -- a list only grows, and with it the least that an answer can take
  · rw [onPing_answer, List.mem_singleton] at hl
    subst hl
    exact Nat.lt_of_lt_of_le full (leastSize_le keyed later now' src' sender' rpc' i')

/-- A guest comes and goes. -/
def visit (n : NodeId) : List Occurrence :=
  [.hears 1 (.v4 2 7946) (.join ⟨n, .v4 2 7946, .v4 2 7947, .alive, 1⟩), .hears 2 (.v4 2 7946) (.leave n)]

theorem answer_size_visit : ∃ s, (start ⟨"a"⟩ (.v4 1 7946) (.v4 1 7947) 0).run (visit ⟨"guest"⟩) = .ok s ∧
    (∃ k, s.get? ⟨"guest"⟩ = some k ∧ k.member.state = .dead) ∧
    (s.listed 3 (.v4 3 7946) ⟨"c"⟩ (.v4 3 7947) 1).map (·.id) = [⟨"a"⟩, ⟨"c"⟩, ⟨"guest"⟩] ∧
    (GossipMessage.codec.write (.ack ⟨"a"⟩ s.incarnation (s.listed 3 (.v4 3 7946) ⟨"c"⟩ (.v4 3 7947) 1))).length = 156 := by
  refine ⟨_, rfl, ⟨_, rfl, rfl⟩, rfl, ?_⟩
  have run : (start ⟨"a"⟩ (.v4 1 7946) (.v4 1 7947) 0).run (visit ⟨"guest"⟩) = .ok _ := rfl
  obtain ⟨_, _, _, size, _⟩ := answer_size run 3 (.v4 3 7946) ⟨"c"⟩ (.v4 3 7947) 1
  exact size.trans rfl

def guest (k : Nat) : NodeId :=
  ⟨String.ofList (List.replicate k 'g')⟩

theorem guest_inj {j k : Nat} (h : guest j = guest k) : j = k := by
  have names : List.replicate j 'g' = List.replicate k 'g' := String.ofList_injective (congrArg NodeId.text h)
  have := congrArg List.length names
  rwa [List.length_replicate, List.length_replicate] at this

/-- Guests who come and go one after the other, so many that no answer fits any more. -/
def guests : List Occurrence :=
  (List.range 1700).flatMap fun k => visit (guest k)

theorem guests_named {k : Nat} (h : k < 1700) : guest k ∈ guests.flatMap (·.names ⟨"a"⟩) := by
  have come : visit (guest k) ⊆ guests := by
    intro o ho
    exact List.mem_flatMap.mpr ⟨k, List.mem_range.mpr h, ho⟩
  exact List.mem_flatMap.mpr ⟨_, come List.mem_cons_self, List.mem_singleton_self _⟩

theorem guests_ok : ∃ s, (start ⟨"a"⟩ (.v4 1 7946) (.v4 1 7947) 0).run guests = .ok s := by
  refine (run_isOk _ guests).mpr fun now src last => ?_
  obtain ⟨k, _, hk⟩ := List.mem_flatMap.mp last
  rcases List.mem_cons.mp hk with joins | leaves
  · cases joins
  · cases List.mem_singleton.mp leaves

theorem guests_fill {s : Service} (h : (start ⟨"a"⟩ (.v4 1 7946) (.v4 1 7947) 0).run guests = .ok s) :
    Frame.maxSize < s.leastSize := by
  have keyed : s.Keyed := (Keyed.start ⟨"a"⟩ (.v4 1 7946) (.v4 1 7947) 0).run h
  have once : ((List.range 1700).map guest).Nodup :=
    List.Pairwise.map guest (fun _ _ apart same => apart (guest_inj same)) List.nodup_range
  have sub : (List.range 1700).map guest ⊆ s.all.map (·.id) := by
    intro n hn
    obtain ⟨k, hk, rfl⟩ := List.mem_map.mp hn
    rw [mem_ids keyed, isSome_run h]
    exact .inr (guests_named (List.mem_range.mp hk))
  have each : 1700 * 40 ≤ (((List.range 1700).map guest).map fun n => 40 + Utf8.size n.text).sum := by
    refine Nat.le_trans (Nat.le_of_eq ?_) (List.card_nsmul_le_sum _ 40 fun k hk => ?_)
    · rw [List.length_map, List.length_map, List.length_range]
      rfl
    · obtain ⟨n, _, rfl⟩ := List.mem_map.mp hk
      exact Nat.le_add_right 40 _
  have all := Nat.le_trans each (sum_le_of_subset _ once sub)
  unfold leastSize Frame.maxSize
  omega

/-- Not every ping can be answered. -/
theorem answer_too_large :
    ¬ ∀ id gossipAddr rpcAddr begun os s, (start id gossipAddr rpcAddr begun).run os = .ok s →
      ∀ now src sender rpc i, ∀ l ∈ (s.onPing now src sender rpc i).2,
        (GossipMessage.codec.write l.message).length ≤ Frame.maxSize := by
  intro fits
  obtain ⟨s, hs⟩ := guests_ok
  have keyed : s.Keyed := (Keyed.start ⟨"a"⟩ (.v4 1 7946) (.v4 1 7947) 0).run hs
  have fit := fits _ _ _ _ guests s hs 3 (.v4 3 7946) ⟨"c"⟩ (.v4 3 7947) 1
  rw [onPing_answer] at fit
  have still : s.run [] = .ok s := rfl
  have least := leastSize_le keyed still 3 (.v4 3 7946) ⟨"c"⟩ (.v4 3 7947) 1
  have full := guests_fill hs
  have := fit _ (List.mem_singleton_self _)
  dsimp only at this
  omega

end Service

end Gossip

end Workshare
