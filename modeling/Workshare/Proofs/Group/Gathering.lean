import Workshare.Proofs.Group.Basic

namespace Workshare

namespace Manager

/-- Those who join are members; nothing is counted meanwhile. -/
theorem run_joins (m : Manager) (ns : List NodeId) :
    (∀ p, (m.run (ns.map (.hear <| .join ·))).members.contains p = (decide (p ∈ ns) || m.members.contains p)) ∧
      (m.run (ns.map (.hear <| .join ·))).statistics = m.statistics := by
  induction ns generalizing m with
  | nil => exact ⟨fun p => by simp, rfl⟩
  | cons n ns ih =>
    obtain ⟨hm, hs⟩ := ih (m.join n)
    refine ⟨?_, hs.trans (statistics_join m n)⟩
    intro p
    have hj : (m.join n).members.contains p = (decide (p = n) || m.members.contains p) := by simp [join]
    have hr : m.run ((n :: ns).map (.hear <| .join ·)) = (m.join n).run (ns.map (.hear <| .join ·)) := rfl
    rw [hr, hm p, hj]
    by_cases hp : p = n <;> simp [hp]

end Manager

namespace Group

variable {α : Type}

def newcomer (tag : Tag) (free : Free) (addresses : Table NodeId α) (n : NodeId) (a : α) : Station α where
  address := a
  manager :=
    { ((Manager.start n .default free).setTransport tag false).run (addresses.keys.map (.hear <| .join ·)) with
      outbox := [] }
  book := ⟨n, addresses, .empty⟩

def gather (tag : Tag) (free : Free) (addresses : Table NodeId α) : Group α where
  stations := addresses.mapValues (newcomer tag free addresses)
  flying := []

section Gathered

variable {tag : Tag} {free : Free} {addresses : Table NodeId α} {n : NodeId} {s : Station α}

theorem station_gather (h : (gather tag free addresses).stations.get? n = some s) :
    ∃ a, addresses.get? n = some a ∧ s = newcomer tag free addresses n a := by
  have hs : (addresses.mapValues (newcomer tag free addresses)).get? n = some s := h
  rw [Table.get?_mapValues] at hs
  obtain ⟨a, ha, rfl⟩ := Option.map_eq_some_iff.mp hs
  exact ⟨a, ha, rfl⟩

theorem newcomer_statistics (n : NodeId) (a : α) :
    (newcomer tag free addresses n a).manager.statistics = { Statistics.start n true with transport := some tag } :=
  (Manager.run_joins _ _).2

theorem gather_blank : (gather tag free addresses).Blank := by
  refine ⟨?_, ?_, rfl⟩
  · intro n s h
    obtain ⟨a, _, rfl⟩ := station_gather h
    rw [newcomer_statistics]
    rfl
  · intro n s h
    obtain ⟨a, _, rfl⟩ := station_gather h
    rw [newcomer_statistics]
    rfl

theorem gather_assembled (fits : ∀ p, addresses.contains p → Fits p.text)
    (apart : ∀ p q a, addresses.get? p = some a → addresses.get? q = some a → p = q) :
    (gather tag free addresses).Assembled := by
  have contains : ∀ p, (gather tag free addresses).stations.contains p = addresses.contains p := by
    intro p
    show (Table.get? (addresses.mapValues _) p).isSome = _
    rw [Table.get?_mapValues, Option.isSome_map]
    rfl
  refine ⟨?_, ?_, ?_, ?_, ?_, ?_, ?_⟩
  · intro n s h
    obtain ⟨a, ha, rfl⟩ := station_gather h
    refine ⟨Manager.run_id _ _, rfl, fits n ?_⟩
    rw [Table.contains, ha]
    rfl
  · intro n s h
    obtain ⟨a, _, rfl⟩ := station_gather h
    have sound := ((Manager.Sound.start n .default free).move (.transport tag false)).run
      (addresses.keys.map (.hear <| .join ·))
    exact sound.of_eq rfl rfl rfl rfl rfl rfl
  · intro n s p h hp
    obtain ⟨a, _, rfl⟩ := station_gather h
    have hm := (Manager.run_joins ((Manager.start n .default free).setTransport tag false) addresses.keys).1 p
    rw [contains p] at hp
    rw [decide_eq_true (Table.mem_keys_iff.mpr hp), Bool.true_or] at hm
    exact hm
  · intro n s p h _
    obtain ⟨a, _, rfl⟩ := station_gather h
    show addresses.get? p = (Table.get? (addresses.mapValues _) p).map _
    rw [Table.get?_mapValues, Option.map_map]
    cases addresses.get? p <;> rfl
  · intro n s p t h h' hat
    obtain ⟨a, ha, rfl⟩ := station_gather h
    obtain ⟨b, hb, rfl⟩ := station_gather h'
    exact apart n p a ha (hb.trans (congrArg some hat.symm))
  · intro n s h
    obtain ⟨a, _, rfl⟩ := station_gather h
    rw [newcomer_statistics]
    rfl
  · intro n s h
    obtain ⟨a, _, rfl⟩ := station_gather h
    rfl

end Gathered

end Group

end Workshare
