import Workshare.Net.OneWay
import Workshare.Proofs.Manager.Deltas
import Workshare.Proofs.Wire.RoundTrip

namespace Workshare

open Wire

/-- A node of a group: where it is reached, its manager, and the addresses that its transport knows. -/
structure Station (α : Type) where
  address : α
  manager : Manager
  book : AddressBook α

/-- The nodes of a group, and the letters between them that have not arrived yet. The network neither loses nor
doubles a letter, but letters arrive in any order. -/
structure Group (α : Type) where
  stations : Table NodeId (Station α)
  flying : List (Letter α)

/-- A move of a node that stays in its group. -/
def Move.stays : Move → Bool
  | .connect => false
  | .disconnect => false
  | x => x.isPlain

theorem Move.isPlain_of_stays {x : Move} (h : x.stays) : x.isPlain := by
  cases x <;> first | rfl | cases h

theorem Move.isHome_of_stays {x : Move} (h : x.stays) : x.isHome := by
  cases x <;> first | rfl | cases h

theorem Move.isUntold_of_stays {x : Move} (h : x.stays) : x.isUntold := by
  cases x <;> first | rfl | cases h

/-- What happens in a group while nobody comes or goes: a node makes a move, or one of the letters arrives. -/
inductive Happening
  | acts (node : NodeId) (x : Move) (stays : x.stays)
  | arrives (index : Nat)

namespace Group

section Letters

variable {α : Type} (address : Codec α)

/-- The letters that carry out an effect. -/
def mail (b : AddressBook α) (e : Effect) : List (Letter α) :=
  match e.request? with
  | some request => b.letters address request
  | none => []

/-- A node makes a move, and its transport sends what the manager asks for. -/
def act (g : Group α) (n : NodeId) (x : Move) : Group α :=
  match g.stations.get? n with
  | none => g
  | some s =>
    let (effects, m) := (s.manager.move x).drain
    ⟨g.stations.insert n { s with manager := m }, g.flying ++ effects.flatMap (mail address s.book)⟩

/-- What a letter tells a manager; one that cannot be read tells nothing. -/
def notice? (l : Letter α) : Option Notice :=
  (Request.decode address l.op l.body).toOption.bind Request.notice?

theorem notice?_of_decode {l : Letter α} {r : Request α} (h : Request.decode address l.op l.body = .ok r) :
    notice? address l = r.notice? := by
  unfold notice?
  rw [h]
  rfl

theorem decode_of_notice? {l : Letter α} {notice : Notice} (h : notice? address l = some notice) :
    ∃ r, Request.decode address l.op l.body = .ok r ∧ r.notice? = some notice := by
  unfold notice? at h
  cases hd : Request.decode address l.op l.body with
  | error e => rw [hd] at h; cases h
  | ok r => rw [hd] at h; exact ⟨r, rfl, h⟩

/-- Only the operation of a delta makes a delta. -/
theorem counter?_of_delta {op : Operation} {target : α} {body : List UInt8} {origin : NodeId} {c : Counter}
    (h : notice? address ⟨target, op.id, body⟩ = some (.delta origin c)) : op = .delta c := by
  obtain ⟨r, hd, hr⟩ := decode_of_notice? address h
  have hop := Request.operation_of_decode hd
  cases r <;> first | (cases hr; exact hop.symm) | cases hr

theorem letters_eq (b : AddressBook α) (request : Request α) :
    b.letters address request = b.peerAddresses.map fun t => ⟨t, request.operation.id, request.body address⟩ :=
  rfl

end Letters

variable {α : Type} [DecidableEq α] (address : Codec α)

def receiver? (g : Group α) (a : α) : Option NodeId :=
  (g.stations.entries.find? (·.2.address = a)).map (·.1)

def receive (g : Group α) (l : Letter α) : Group α :=
  match g.receiver? l.target, notice? address l with
  | some n, some notice => g.act address n (.hear notice)
  | _, _ => g

def arrive (g : Group α) (i : Nat) : Group α :=
  match g.flying[i]? with
  | some l => { g with flying := g.flying.eraseIdx i }.receive address l
  | none => g

def after (g : Group α) : Happening → Group α
  | .acts n x _ => g.act address n x
  | .arrives i => g.arrive address i

def run (g : Group α) (hs : List Happening) : Group α :=
  hs.foldl (after address) g

/-- Whether a letter is the delta of a counter on its way to an address. -/
def carries (origin : NodeId) (c : Counter) (target : α) (l : Letter α) : Bool :=
  decide (l.target = target) && decide (notice? address l = some (.delta origin c))

/-- How many deltas of a counter are on their way from a node to an address. -/
def pending (g : Group α) (origin : NodeId) (c : Counter) (target : α) : Nat :=
  g.flying.countP (carries address origin c target)

/-- Everybody knows everybody else, addresses tell nodes apart, and everybody replicates. -/
structure Assembled (g : Group α) : Prop where
  named : ∀ {n s}, g.stations.get? n = some s → s.manager.id = n ∧ s.book.self = n ∧ Fits n.text
  sound : ∀ {n s}, g.stations.get? n = some s → s.manager.Sound
  knows : ∀ {n s p}, g.stations.get? n = some s → g.stations.contains p → s.manager.members.contains p
  reaches : ∀ {n s p}, g.stations.get? n = some s → p ≠ n →
    s.book.addresses.get? p = (g.stations.get? p).map (·.address)
  apart : ∀ {n s p t}, g.stations.get? n = some s → g.stations.get? p = some t → s.address = t.address → n = p
  replicates : ∀ {n s}, g.stations.get? n = some s → s.manager.statistics.replicatesTo.isSome
  quiet : ∀ {n s}, g.stations.get? n = some s → s.manager.outbox = []

/-- Nobody has counted anything, and nothing is on its way. -/
structure Blank (g : Group α) : Prop where
  own : ∀ {n s}, g.stations.get? n = some s → s.manager.statistics.own = .zero
  peers : ∀ {n s}, g.stations.get? n = some s → s.manager.statistics.peers = .empty
  flying : g.flying = []

end Group

/-- A node's tally as known here, nothing heard yet being zero. -/
def Statistics.known (s : Statistics) (n : NodeId) : Tally Nat :=
  (s.get? n).getD .zero

namespace Group

variable {α : Type} [DecidableEq α] (address : Codec α)

theorem countP_posted (targets : List α) (op : UInt16) (body : List UInt8) (p : NodeId) (c : Counter) (a : α) :
    (targets.map fun t => (⟨t, op, body⟩ : Letter α)).countP (carries address p c a) =
      if notice? address (⟨a, op, body⟩ : Letter α) = some (.delta p c) then targets.count a else 0 := by
  rw [List.countP_map]
  split
  next h =>
    rw [List.count_eq_countP]
    refine List.countP_congr fun t _ => ?_
    by_cases ht : t = a
    · subst ht
      simp [carries, h]
    · simp [carries, ht]
  next h =>
    refine List.countP_eq_zero.mpr fun t _ => ?_
    by_cases ht : t = a
    · subst ht
      simp [carries, h]
    · simp [carries, ht]

/-- The letters of an effect carry its delta to the peers, if it is one. -/
theorem countP_mail (b : AddressBook α) (e : Effect) {n : NodeId} (hn : Fits n.text)
    (he : ∀ d, e.delta? = some d → d.1 = n) (p : NodeId) (c : Counter) (a : α) :
    (mail address b e).countP (carries address p c a) =
      if e.delta? = some (p, c) then b.peerAddresses.count a else 0 := by
  cases e with
  | delta tag origin counter =>
    have ho : origin = n := he _ rfl
    subst ho
    have hm : mail address b (.delta tag origin counter) = b.letters address (.delta origin counter) := rfl
    have hd : notice? address (⟨a, (Operation.delta counter).id, NodeId.codec.write origin⟩ : Letter α) =
        some (.delta origin counter) :=
      notice?_of_decode address (r := .delta origin counter) (Request.decode_delta hn counter)
    rw [hm, letters_eq, countP_posted]
    simp only [Request.operation, Request.body, hd, Effect.delta?, Option.some.injEq, Notice.delta.injEq, Prod.mk.injEq]
  | announce tag node long free =>
    have hm : mail address b (.announce tag node long free) =
        b.letters address (Cluster.updateFreeRequest node long free) := rfl
    rw [hm, letters_eq, countP_posted, if_neg, if_neg]
    · intro h
      cases h
    · intro h
      have hop := counter?_of_delta address h
      unfold Cluster.updateFreeRequest at hop
      split at hop <;> cases hop
  | _ => rfl

/-- A letter on its way to an address leaves with each step of the tally that is told. -/
theorem countP_mails (b : AddressBook α) {n : NodeId} (hn : Fits n.text) (effects : List Effect) {steps : List Counter}
    (hs : effects.filterMap Effect.delta? = steps.map (n, ·)) (p : NodeId) (c : Counter) (a : α) :
    (effects.flatMap (mail address b)).countP (carries address p c a) =
      if p = n then steps.count c * b.peerAddresses.count a else 0 := by
  induction effects generalizing steps with
  | nil =>
    have : steps = [] := by simpa using hs.symm
    simp [this]
  | cons e effects ih =>
    rw [List.flatMap_cons, List.countP_append]
    cases he : e.delta? with
    | none =>
      rw [List.filterMap_cons, he] at hs
      rw [countP_mail address b e hn (by simp [he]), he, ih hs]
      simp
    | some d =>
      rw [List.filterMap_cons, he] at hs
      cases steps with
      | nil => cases hs
      | cons s steps =>
        have hs : d :: effects.filterMap Effect.delta? = (n, s) :: steps.map (n, ·) := hs
        obtain ⟨rfl, rest⟩ := List.cons.inj hs
        rw [countP_mail address b e hn (by simp [he]), he, ih rest]
        by_cases hp : p = n
        · by_cases hc : s = c
          · subst hp hc
            simp [Nat.add_mul, Nat.add_comm]
          · simp [hp, hc]
        · simp [hp, Ne.symm hp]

end Group

end Workshare
