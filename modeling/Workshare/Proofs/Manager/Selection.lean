import Workshare.Selector
import Workshare.Proofs.Text.Utf8

namespace Workshare

namespace NodeId

def bytes (n : NodeId) : List UInt8 :=
  Utf8.encode n.text.toList

theorem bytes_le {a b : NodeId} : a.bytes ≤ b.bytes ↔ a = b ∨ a < b := by
  rw [← List.not_lt, bytes, bytes, Utf8.encode_lt_iff]
  constructor
  · intro h
    rcases Key.total a b with lt | same | gt
    · exact .inr lt
    · exact .inl same
    · exact absurd gt h
  · intro h gt
    rcases h with rfl | lt
    · exact Key.irrefl a gt
    · exact Key.irrefl a (Key.trans lt gt)

theorem eq_of_bytes_le {a b : NodeId} (h : a.bytes ≤ b.bytes) (h' : b.bytes ≤ a.bytes) : a = b := by
  rcases bytes_le.mp h with same | lt
  · exact same
  · rcases bytes_le.mp h' with same | gt
    · exact same.symm
    · exact absurd (Key.trans lt gt) (Key.irrefl a)

end NodeId

namespace Surroundings

/-- A member other than the node itself, with so many workers free in a pool, one at least. -/
def Offers (s : Surroundings) (long : Bool) (n : NodeId) (free : UInt64) : Prop :=
  s.members.contains n ∧ n ≠ s.self ∧ (∃ f, s.capacity.get? n = some f ∧ f.ofPool long = free) ∧ 0 < free

def Eligible (s : Surroundings) (long : Bool) (n : NodeId) : Prop :=
  ∃ free, s.Offers long n free

/-- The eligible peer with the least id. -/
def IsFirst (s : Surroundings) (long : Bool) (n : NodeId) : Prop :=
  s.Eligible long n ∧ ∀ p, s.Eligible long p → n.bytes ≤ p.bytes

/-- The eligible peer with the most workers free, and of those with as many the one with the least id. -/
def IsMostFree (s : Surroundings) (long : Bool) (n : NodeId) : Prop :=
  ∃ free, s.Offers long n free ∧ ∀ p other, s.Offers long p other → other < free ∨ other = free ∧ n.bytes ≤ p.bytes

theorem IsFirst.unique {s : Surroundings} {long : Bool} {n p : NodeId} (h : s.IsFirst long n) (h' : s.IsFirst long p) :
    n = p :=
  NodeId.eq_of_bytes_le (h.2 p h'.1) (h'.2 n h.1)

theorem IsMostFree.unique {s : Surroundings} {long : Bool} {n p : NodeId} (h : s.IsMostFree long n)
    (h' : s.IsMostFree long p) : n = p := by
  obtain ⟨free, offer, most⟩ := h
  obtain ⟨other, offer', most'⟩ := h'
  rcases most p other offer' with less | same
  · rcases most' n free offer with less' | same'
    · exact absurd (UInt64.lt_trans less less') (UInt64.lt_irrefl other)
    · rw [same'.1] at less
      exact absurd less (UInt64.lt_irrefl other)
  · rcases most' n free offer with less' | same'
    · rw [same.1] at less'
      exact absurd less' (UInt64.lt_irrefl free)
    · exact NodeId.eq_of_bytes_le same.2 same'.2

/-- What is picked depends on the offers for one pool only. -/
theorem isFirst_congr {s t : Surroundings} {long : Bool} (h : ∀ n free, t.Offers long n free ↔ s.Offers long n free)
    (n : NodeId) : t.IsFirst long n ↔ s.IsFirst long n := by
  unfold IsFirst Eligible
  simp only [h]

theorem isMostFree_congr {s t : Surroundings} {long : Bool}
    (h : ∀ n free, t.Offers long n free ↔ s.Offers long n free) (n : NodeId) :
    t.IsMostFree long n ↔ s.IsMostFree long n := by
  unfold IsMostFree
  simp only [h]

theorem offer_eq_some {s : Surroundings} {long : Bool} {n : NodeId} {c : NodeId × UInt64} :
    ((s.capacity.get? n).bind fun f => if 0 < f.ofPool long then some (n, f.ofPool long) else none) = some c ↔
      c.1 = n ∧ (∃ f, s.capacity.get? n = some f ∧ f.ofPool long = c.2) ∧ 0 < c.2 := by
  rw [Option.bind_eq_some_iff]
  constructor
  · intro h
    obtain ⟨f, hf, h⟩ := h
    split at h
    next positive =>
      cases h
      exact ⟨rfl, ⟨f, hf, rfl⟩, positive⟩
    next => cases h
  · intro h
    obtain ⟨rfl, ⟨f, hf, same⟩, positive⟩ := h
    refine ⟨f, hf, ?_⟩
    rw [same, if_pos positive]

theorem mem_candidates {s : Surroundings} {long : Bool} {n : NodeId} {free : UInt64} :
    (n, free) ∈ s.candidates long ↔ s.Offers long n free := by
  unfold candidates Offers
  rw [List.mem_filterMap]
  constructor
  · intro h
    obtain ⟨p, hp, h⟩ := h
    obtain ⟨rfl, offer, positive⟩ := offer_eq_some.mp h
    obtain ⟨member, other⟩ := Roster.mem_peers.mp hp
    exact ⟨member, other, offer, positive⟩
  · intro h
    obtain ⟨member, other, offer, positive⟩ := h
    exact ⟨n, Roster.mem_peers.mpr ⟨member, other⟩, offer_eq_some.mpr ⟨rfl, offer, positive⟩⟩

theorem eligible_iff {s : Surroundings} {long : Bool} {n : NodeId} :
    s.Eligible long n ↔ ∃ c ∈ s.candidates long, c.1 = n := by
  constructor
  · intro h
    obtain ⟨free, h⟩ := h
    exact ⟨(n, free), mem_candidates.mpr h, rfl⟩
  · intro h
    obtain ⟨c, hc, rfl⟩ := h
    exact ⟨c.2, mem_candidates.mp hc⟩

theorem candidates_sorted (s : Surroundings) (long : Bool) : (s.candidates long).Pairwise (·.1 < ·.1) := by
  have ordered : (s.members.peers s.self).Pairwise (· < ·) := s.members.table.keys_sorted.filter _
  refine ordered.filterMap _ fun n p before b hb c hc => ?_
  rw [(offer_eq_some.mp hb).1, (offer_eq_some.mp hc).1]
  exact before

end Surroundings

namespace SelectorRule

theorem first_eq_none {s : Surroundings} {long : Bool} : first s long = none ↔ ∀ n, ¬ s.Eligible long n := by
  unfold first
  rw [Option.map_eq_none_iff, List.head?_eq_none_iff, List.eq_nil_iff_forall_not_mem]
  constructor
  · intro empty n h
    obtain ⟨free, h⟩ := h
    exact empty _ (Surroundings.mem_candidates.mpr h)
  · intro empty c hc
    exact empty c.1 ⟨c.2, Surroundings.mem_candidates.mp hc⟩

theorem least_of_head? {l : List (NodeId × UInt64)} {b : NodeId × UInt64} (sorted : l.Pairwise (·.1 < ·.1))
    (h : l.head? = some b) : b ∈ l ∧ ∀ c ∈ l, b.1 = c.1 ∨ b.1 < c.1 := by
  cases l with
  | nil => cases h
  | cons x l =>
    cases h
    refine ⟨List.mem_cons_self, fun c hc => ?_⟩
    rcases List.mem_cons.mp hc with rfl | hc
    · exact .inl rfl
    · exact .inr (List.rel_of_pairwise_cons sorted hc)

theorem first_least {s : Surroundings} {long : Bool} {n : NodeId} (h : first s long = some n) :
    s.IsFirst long n := by
  obtain ⟨b, hb, rfl⟩ := Option.map_eq_some_iff.mp h
  obtain ⟨mem, least⟩ := least_of_head? (s.candidates_sorted long) hb
  refine ⟨Surroundings.eligible_iff.mpr ⟨b, mem, rfl⟩, fun p hp => ?_⟩
  obtain ⟨c, hc, rfl⟩ := Surroundings.eligible_iff.mp hp
  exact NodeId.bytes_le.mpr (least c hc)

/-- Nobody offers more, and whoever offers as much has no lesser id. -/
structure Foremost (l : List (NodeId × UInt64)) (b : NodeId × UInt64) : Prop where
  mem : b ∈ l
  most : ∀ c ∈ l, c.2 < b.2 ∨ c.2 = b.2 ∧ (b.1 = c.1 ∨ b.1 < c.1)

/-- The next peer has a greater id, so it is foremost only if it offers more. -/
theorem Foremost.better {seen : List (NodeId × UInt64)} {b x : NodeId × UInt64} (h : Foremost seen b)
    (after : b.1 < x.1) : ∃ b', better (some b) x = some b' ∧ Foremost (seen ++ [x]) b' := by
  have member := List.mem_append_left [x] h.mem
  unfold SelectorRule.better
  dsimp only
  split
  next enough =>
    refine ⟨b, rfl, member, fun c hc => ?_⟩
    rcases List.mem_append.mp hc with hc | hc
    · exact h.most c hc
    · rw [List.mem_singleton.mp hc]
      rcases UInt64.lt_or_eq_of_le enough with less | same
      · exact .inl less
      · exact .inr ⟨same, .inr after⟩
  next more =>
    have greater : b.2 < x.2 := UInt64.not_le.mp more
    refine ⟨x, rfl, List.mem_append_right seen List.mem_cons_self, fun c hc => ?_⟩
    rcases List.mem_append.mp hc with hc | hc
    · rcases h.most c hc with less | same
      · exact .inl (UInt64.lt_trans less greater)
      · rw [same.1]
        exact .inl greater
    · rw [List.mem_singleton.mp hc]
      exact .inr ⟨rfl, .inl rfl⟩

/-- The invariant of the pass over the peers, `seen` being those it has passed. -/
theorem Foremost.foldl {seen l : List (NodeId × UInt64)} {b : NodeId × UInt64} (h : Foremost seen b)
    (sorted : (seen ++ l).Pairwise (·.1 < ·.1)) :
    ∃ b', l.foldl SelectorRule.better (some b) = some b' ∧ Foremost (seen ++ l) b' := by
  induction l generalizing seen b with
  | nil =>
    rw [List.append_nil]
    exact ⟨b, rfl, h⟩
  | cons x l ih =>
    have after : b.1 < x.1 := (List.pairwise_append.mp sorted).2.2 b h.mem x List.mem_cons_self
    obtain ⟨b', next, h'⟩ := h.better after
    rw [List.append_cons] at sorted ⊢
    rw [List.foldl_cons, next]
    exact ih h' sorted

theorem foldl_better {l : List (NodeId × UInt64)} (sorted : l.Pairwise (·.1 < ·.1)) :
    l = [] ∨ ∃ b, l.foldl better none = some b ∧ Foremost l b := by
  cases l with
  | nil => exact .inl rfl
  | cons x l =>
    have alone : Foremost [x] x := by
      refine ⟨List.mem_cons_self, fun c hc => ?_⟩
      rw [List.mem_singleton.mp hc]
      exact .inr ⟨rfl, .inl rfl⟩
    exact .inr (alone.foldl sorted)

theorem mostFree_eq_none {s : Surroundings} {long : Bool} : mostFree s long = none ↔ ∀ n, ¬ s.Eligible long n := by
  rw [← first_eq_none]
  unfold mostFree first
  rcases foldl_better (s.candidates_sorted long) with empty | ⟨b, hb, foremost⟩
  · rw [empty]
    exact Iff.rfl
  · rw [hb, Option.map_eq_none_iff, Option.map_eq_none_iff, List.head?_eq_none_iff]
    constructor
    · intro h
      cases h
    · intro empty
      rw [empty] at foremost
      cases foremost.mem

theorem mostFree_foremost {s : Surroundings} {long : Bool} {n : NodeId} (h : mostFree s long = some n) :
    s.IsMostFree long n := by
  obtain ⟨b, hb, rfl⟩ := Option.map_eq_some_iff.mp h
  rcases foldl_better (s.candidates_sorted long) with empty | ⟨b', hb', foremost⟩
  · rw [empty] at hb
    cases hb
  · cases hb.symm.trans hb'
    refine ⟨b.2, Surroundings.mem_candidates.mp foremost.mem, fun p other hp => ?_⟩
    rcases foremost.most (p, other) (Surroundings.mem_candidates.mpr hp) with less | same
    · exact .inl less
    · exact .inr ⟨same.1, NodeId.bytes_le.mpr same.2⟩

/-- A rule that picks none exactly if there is none, and one that is the one, picks just the one. -/
theorem eq_some_iff_of_unique {r : Option NodeId} {P : NodeId → Prop} (unique : ∀ n p, P n → P p → n = p)
    (picked : ∀ n, r = some n → P n) (none : r = none → ∀ n, ¬ P n) (n : NodeId) : r = some n ↔ P n := by
  constructor
  · exact picked n
  · intro h
    cases hr : r with
    | none => exact absurd h (none hr n)
    | some p => rw [unique p n (picked p hr) h]

theorem first_eq_some {s : Surroundings} {long : Bool} (n : NodeId) : first s long = some n ↔ s.IsFirst long n :=
  eq_some_iff_of_unique (fun _ _ h h' => h.unique h') (fun _ h => first_least h)
    (fun none n h => first_eq_none.mp none n h.1) n

theorem mostFree_eq_some {s : Surroundings} {long : Bool} (n : NodeId) :
    mostFree s long = some n ↔ s.IsMostFree long n := by
  refine eq_some_iff_of_unique (fun _ _ h h' => h.unique h') (fun _ h => mostFree_foremost h) (fun none n h => ?_) n
  obtain ⟨free, offer, _⟩ := h
  exact mostFree_eq_none.mp none n ⟨free, offer⟩

/-- Both selectors give an answer, which is none exactly if no peer has a worker to offer. The one answers with the
first such peer by its id, the other with the first of those that offer the most; whatever else the view and the table
hold, and however they were filled, does not matter. -/
theorem selectors_pick (s : Surroundings) (work : Work) :
    (∃ r, firstAvailable.select s work = .ok r ∧ (r = none ↔ ∀ n, ¬ s.Eligible work.longRunning n) ∧
      ∀ n, r = some n ↔ s.IsFirst work.longRunning n) ∧
    (∃ r, maxFreeWorkers.select s work = .ok r ∧ (r = none ↔ ∀ n, ¬ s.Eligible work.longRunning n) ∧
      ∀ n, r = some n ↔ s.IsMostFree work.longRunning n) ∧
    ∀ t : Surroundings,
      (∀ n free, t.Offers work.longRunning n free ↔ s.Offers work.longRunning n free) →
        firstAvailable.select t work = firstAvailable.select s work ∧
          maxFreeWorkers.select t work = maxFreeWorkers.select s work := by
  refine ⟨⟨_, rfl, first_eq_none, first_eq_some⟩, ⟨_, rfl, mostFree_eq_none, mostFree_eq_some⟩, fun t same => ?_⟩
  have first_same : first t work.longRunning = first s work.longRunning := by
    apply Option.ext
    intro n
    rw [first_eq_some, first_eq_some]
    exact Surroundings.isFirst_congr same n
  have most_same : mostFree t work.longRunning = mostFree s work.longRunning := by
    apply Option.ext
    intro n
    rw [mostFree_eq_some, mostFree_eq_some]
    exact Surroundings.isMostFree_congr same n
  exact ⟨congrArg Except.ok first_same, congrArg Except.ok most_same⟩

/-- A node among three others, of which two have as many workers for short-running works. -/
def tied : List (NodeId × Free) :=
  [(⟨"a"⟩, ⟨5, 0⟩), (⟨"b"⟩, ⟨0, 1⟩), (⟨"c"⟩, ⟨2, 3⟩), (⟨"d"⟩, ⟨2, 0⟩)]

def filled (order : List (NodeId × Free)) : Surroundings :=
  ⟨⟨"a"⟩, order.foldl (fun r e => r.insert e.1) .empty, order.foldl (fun t e => t.update e.1 e.2) .empty⟩

theorem selectors_pick_tie :
    (filled tied).IsMostFree false ⟨"c"⟩ ∧
      maxFreeWorkers.select (filled tied.reverse) ⟨⟨"w"⟩, "log", .null, true, false⟩ = .ok (some ⟨"c"⟩) := by
  have members : (filled tied.reverse).members = (filled tied).members := by decide +kernel
  have capacity : (filled tied.reverse).capacity = (filled tied).capacity := by decide +kernel
  obtain ⟨_, ⟨r, answer, _, picked⟩, same⟩ := selectors_pick (filled tied) ⟨⟨"w"⟩, "log", .null, true, false⟩
  have backwards := (same (filled tied.reverse) fun n free => by
    unfold Surroundings.Offers
    rw [members, capacity]
    exact Iff.rfl).2
  have c : maxFreeWorkers.select (filled tied) ⟨⟨"w"⟩, "log", .null, true, false⟩ = .ok (some ⟨"c"⟩) := by rfl
  rw [c] at answer
  cases answer
  exact ⟨(picked ⟨"c"⟩).mp rfl, backwards.trans c⟩

end SelectorRule

end Workshare
