import Workshare.Net.AddressBook

namespace Workshare

/-- How a transport stands to a node. -/
inductive Standing (α : Type)
  | unknown
  /-- The node has told of itself. -/
  | announced (address : α)
  /-- The last view listed the node. -/
  | viewed (address : α)
  deriving DecidableEq, Repr

inductive Tiding (α : Type)
  | join (node : NodeId) (address : α)
  | leave (node : NodeId)
  | view (members : List (NodeId × α))

def Tiding.isView {α : Type} : Tiding α → Bool
  | .view _ => true
  | _ => false

def MembershipChange.node : MembershipChange → NodeId
  | .joined n => n
  | .left n => n

/-- The address that a list gives for a node, the last one if it gives several. -/
def lastAddress {α : Type} (members : List (NodeId × α)) (p : NodeId) : Option α :=
  ((members.filter (·.1 = p)).getLast?).map (·.2)

theorem isSome_lastAddress {α : Type} {members : List (NodeId × α)} {p : NodeId} :
    (lastAddress members p).isSome ↔ p ∈ members.map (·.1) := by
  rw [lastAddress, Option.isSome_map, List.getLast?_isSome, ne_eq, List.filter_eq_nil_iff, List.mem_map]
  simp

namespace Standing

variable {α : Type}

def address? : Standing α → Option α
  | .unknown => none
  | .announced a => some a
  | .viewed a => some a

def isKnown (s : Standing α) : Bool :=
  s.address?.isSome

def isViewed : Standing α → Bool
  | .viewed _ => true
  | _ => false

def after (p : NodeId) (s : Standing α) : Tiding α → Standing α
  | .join n a => if n = p then (if s.isViewed then .viewed a else .announced a) else s
  | .leave n => if n = p then .unknown else s
  | .view members =>
    match lastAddress members p with
    | some a => .viewed a
    | none => if s.isViewed then .unknown else s

theorem after_join (p : NodeId) (s : Standing α) (n : NodeId) (a : α) :
    s.after p (.join n a) = if n = p then (if s.isViewed then .viewed a else .announced a) else s :=
  rfl

theorem after_leave (p : NodeId) (s : Standing α) (n : NodeId) : s.after p (.leave n) = if n = p then .unknown else s :=
  rfl

theorem after_view_some {p : NodeId} {members : List (NodeId × α)} {a : α} (h : lastAddress members p = some a)
    (s : Standing α) : s.after p (.view members) = .viewed a := by
  simp [after, h]

theorem after_view_none {p : NodeId} {members : List (NodeId × α)} (h : lastAddress members p = none)
    (s : Standing α) : s.after p (.view members) = if s.isViewed then .unknown else s := by
  simp [after, h]

theorem after_view_view (p : NodeId) (s : Standing α) (members : List (NodeId × α)) :
    (s.after p (.view members)).after p (.view members) = s.after p (.view members) := by
  cases ha : lastAddress members p with
  | some a => rw [after_view_some ha, after_view_some ha]
  | none =>
    rw [after_view_none ha, after_view_none ha]
    cases s with
    | unknown => rfl
    | announced a => rfl
    | viewed a => rfl

theorem isViewed_after_join (p : NodeId) (s : Standing α) (n : NodeId) (a : α) :
    (s.after p (.join n a)).isViewed = s.isViewed := by
  rw [after_join]
  by_cases hn : n = p
  · cases s <;> simp [hn, isViewed]
  · rw [if_neg hn]

theorem isKnown_after_join (p : NodeId) (s : Standing α) (n : NodeId) (a : α) :
    (s.after p (.join n a)).isKnown = (decide (n = p) || s.isKnown) := by
  rw [after_join]
  by_cases hn : n = p
  · cases s <;> simp [hn, isKnown, address?, isViewed]
  · simp [hn]

theorem isViewed_after_leave (p : NodeId) (s : Standing α) (n : NodeId) :
    (s.after p (.leave n)).isViewed = (!decide (n = p) && s.isViewed) := by
  rw [after_leave]
  by_cases hn : n = p
  · simp [hn, isViewed]
  · simp [hn]

theorem isKnown_after_leave (p : NodeId) (s : Standing α) (n : NodeId) :
    (s.after p (.leave n)).isKnown = (!decide (n = p) && s.isKnown) := by
  rw [after_leave]
  by_cases hn : n = p
  · simp [hn, isKnown, address?]
  · simp [hn]

theorem isViewed_after_view (p : NodeId) (s : Standing α) (members : List (NodeId × α)) :
    (s.after p (.view members)).isViewed = (lastAddress members p).isSome := by
  cases h : lastAddress members p with
  | some a => rw [after_view_some h]; rfl
  | none => rw [after_view_none h]; cases s <;> rfl

/-- Whoever announced itself stays known, whatever a view says. -/
theorem isKnown_after_view (p : NodeId) (s : Standing α) (members : List (NodeId × α)) :
    (s.after p (.view members)).isKnown = ((lastAddress members p).isSome || (s.isKnown && !s.isViewed)) := by
  cases h : lastAddress members p with
  | some a => rw [after_view_some h]; rfl
  | none => rw [after_view_none h]; cases s <;> rfl

@[simp] theorem isKnown_unknown : (unknown : Standing α).isKnown = false :=
  rfl

@[simp] theorem isKnown_announced (a : α) : (announced a).isKnown = true :=
  rfl

@[simp] theorem isKnown_viewed (a : α) : (viewed a).isKnown = true :=
  rfl

/-- What is reported of a node whose standing has changed. -/
def change? (p : NodeId) (s s' : Standing α) : Option MembershipChange :=
  if s.isKnown = s'.isKnown then none else if s'.isKnown then some (.joined p) else some (.left p)

/-- What is reported of node `p` while news come in, from a standing on. -/
def changes (p : NodeId) (s : Standing α) : List (Tiding α) → List MembershipChange
  | [] => []
  | x :: news => (change? p s (s.after p x)).toList ++ changes p (s.after p x) news

/-- How often node `p` becomes known through a view. -/
def discoveries (p : NodeId) (s : Standing α) : List (Tiding α) → Nat
  | [] => 0
  | x :: news =>
    (if x.isView && !s.isKnown && (s.after p x).isKnown then 1 else 0) + discoveries p (s.after p x) news

end Standing

def standing {α : Type} (p : NodeId) (news : List (Tiding α)) : Standing α :=
  news.foldl (Standing.after p) .unknown

namespace AddressBook

variable {α : Type}

/-- Whom the last view listed and a new one does not. -/
def departed (b : AddressBook α) (members : List (NodeId × α)) : List NodeId :=
  b.viewed.members.filter fun n => !(Table.ofList members).contains n

/-- Takes in a view, whose members and absentees are gone through in the given order. -/
def takeIn (b : AddressBook α) (gone : List NodeId) (listed : List (NodeId × α)) :
    AddressBook α × List MembershipChange :=
  let (b, left) := collect remove b gone
  let (b, joined) := collect see b listed
  (b, left ++ joined)

/-- What news make of an address book; the members of a view are gone through in any order. -/
inductive Learns (b : AddressBook α) : Tiding α → AddressBook α × List MembershipChange → Prop
  | join (n : NodeId) (a : α) : Learns b (.join n a) (b.add n a)
  | leave (n : NodeId) : Learns b (.leave n) (b.remove n)
  | view {members listed : List (NodeId × α)} {gone : List NodeId} : gone.Perm (b.departed members) →
      listed.Perm (Table.ofList members).entries → Learns b (.view members) (b.takeIn gone listed)

theorem learns_onView (b : AddressBook α) (members : List (NodeId × α)) : b.Learns (.view members) (b.onView members) :=
  .view (.refl _) (.refl _)

def standing (b : AddressBook α) (p : NodeId) : Standing α :=
  match b.addresses.get? p with
  | none => .unknown
  | some a => if b.viewed.contains p then .viewed a else .announced a

/-- Whoever was in the last view has an address. -/
def Listed (b : AddressBook α) : Prop :=
  ∀ p, b.viewed.contains p → b.addresses.contains p

variable {b : AddressBook α}

theorem address?_standing (b : AddressBook α) (p : NodeId) : (b.standing p).address? = b.resolve p := by
  unfold standing resolve
  cases b.addresses.get? p with
  | none => rfl
  | some a =>
    dsimp only
    split
    next => rfl
    next => rfl

theorem isKnown_standing (b : AddressBook α) (p : NodeId) : (b.standing p).isKnown = b.addresses.contains p := by
  rw [Standing.isKnown, address?_standing]
  rfl

theorem Listed.isViewed_standing (h : b.Listed) (p : NodeId) : (b.standing p).isViewed = b.viewed.contains p := by
  unfold standing
  cases ha : b.addresses.get? p with
  | none =>
    cases hv : b.viewed.contains p with
    | false => rfl
    | true =>
      have known := h p hv
      rw [Table.contains, ha] at known
      cases known
  | some a => cases b.viewed.contains p <;> rfl

/-- A book in which nobody is known has no addresses. -/
theorem peerAddresses_of_unknown (h : ∀ p, b.standing p = .unknown) : b.peerAddresses = [] := by
  have none : b.addresses = .empty := by
    apply Table.ext_get?
    intro p
    have resolved := address?_standing b p
    rw [h p] at resolved
    exact resolved.symm
  rw [peerAddresses, none]
  rfl

theorem listed_start (self : NodeId) : (start self : AddressBook α).Listed := by
  intro p hp
  cases hp

/-- A book is determined by the standings in it. -/
theorem Listed.ext {b' : AddressBook α} (h : b.Listed) (h' : b'.Listed) (self : b.self = b'.self)
    (same : ∀ p, b.standing p = b'.standing p) : b = b' := by
  have addresses : b.addresses = b'.addresses := by
    apply Table.ext_get?
    intro p
    have resolved := congrArg Standing.address? (same p)
    rwa [address?_standing, address?_standing] at resolved
  have viewed : b.viewed.table = b'.viewed.table := by
    apply Table.ext_get?
    intro p
    have seen := congrArg Standing.isViewed (same p)
    rw [h.isViewed_standing, h'.isViewed_standing] at seen
    have seen : (b.viewed.table.get? p).isSome = (b'.viewed.table.get? p).isSome := seen
    cases hp : b.viewed.table.get? p <;> cases hp' : b'.viewed.table.get? p <;> simp_all
  obtain ⟨_, _, ⟨_⟩⟩ := b
  obtain ⟨_, _, ⟨_⟩⟩ := b'
  simp_all

def about (p : NodeId) (changes : List MembershipChange) : List MembershipChange :=
  changes.filter (·.node = p)

theorem about_append (p : NodeId) (xs ys : List MembershipChange) : about p (xs ++ ys) = about p xs ++ about p ys :=
  List.filter_append _ _

theorem listed_add (h : b.Listed) (n : NodeId) (a : α) : (b.add n a).1.Listed := by
  intro p hp
  have known := h p hp
  simp [add, known]

theorem listed_remove (h : b.Listed) (n : NodeId) : (b.remove n).1.Listed := by
  intro p hp
  have hp : (b.viewed.erase n).contains p = true := hp
  rw [Roster.contains_erase, Bool.and_eq_true] at hp
  simp [remove, hp.1, h p hp.2]

theorem listed_see (h : b.Listed) (e : NodeId × α) : (b.see e).1.Listed := by
  intro p hp
  have hp : (b.viewed.insert e.1).contains p = true := hp
  rw [Roster.contains_insert, Bool.or_eq_true] at hp
  have added : (b.see e).1.addresses = b.addresses.insert e.1 e.2 := rfl
  rw [added, Table.contains_insert]
  rcases hp with hp | hp
  · rw [hp]
    rfl
  · rw [h p hp, Bool.or_true]

theorem standing_add (b : AddressBook α) (n p : NodeId) (a : α) :
    (b.add n a).1.standing p =
      if n = p then (if b.viewed.contains p then .viewed a else .announced a) else b.standing p := by
  unfold standing
  have added : (b.add n a).1.addresses.get? p = if p = n then some a else b.addresses.get? p :=
    Table.get?_insert _ _ _ _
  have kept : (b.add n a).1.viewed = b.viewed := rfl
  rw [added, kept]
  by_cases hp : p = n
  · rw [if_pos hp, if_pos hp.symm]
  · rw [if_neg hp, if_neg (Ne.symm hp)]

theorem standing_remove (b : AddressBook α) (n p : NodeId) :
    (b.remove n).1.standing p = if n = p then .unknown else b.standing p := by
  unfold standing
  have removed : (b.remove n).1.addresses.get? p = if p = n then none else b.addresses.get? p := Table.get?_erase _ _ _
  have erased : (b.remove n).1.viewed.contains p = (!decide (p = n) && b.viewed.contains p) :=
    Roster.contains_erase _ _ _
  rw [removed, erased]
  by_cases hp : p = n
  · rw [if_pos hp, if_pos hp.symm]
  · rw [if_neg hp, if_neg (Ne.symm hp), decide_eq_false hp]
    rfl

theorem standing_see (b : AddressBook α) (e : NodeId × α) (p : NodeId) :
    (b.see e).1.standing p = if e.1 = p then .viewed e.2 else b.standing p := by
  have seen : (b.viewed.insert e.1).contains p = (decide (p = e.1) || b.viewed.contains p) :=
    Roster.contains_insert _ _ _
  unfold see
  rw [standing_add]
  by_cases hp : e.1 = p
  · rw [if_pos hp, if_pos hp]
    dsimp only
    rw [seen, hp]
    simp
  · rw [if_neg hp, if_neg hp]
    unfold standing
    dsimp only
    rw [seen, decide_eq_false (Ne.symm hp)]
    rfl

/-- A node that is reported to have come was not known before, and one that has left was. -/
theorem about_single {p n : NodeId} {known : Bool} {change : MembershipChange} (hn : change.node = n) :
    about p (if known then [change] else []) = if n = p ∧ known then [change] else [] := by
  cases known with
  | false => simp [about]
  | true =>
    by_cases hp : n = p
    · simp [about, hn, hp]
    · simp [about, hn, hp]

theorem about_add (b : AddressBook α) (n p : NodeId) (a : α) :
    about p (b.add n a).2 = if n = p ∧ (b.standing p).isKnown = false then [.joined p] else [] := by
  have reported : (b.add n a).2 = if !b.addresses.contains n then [.joined n] else [] := by
    unfold add
    cases b.addresses.contains n <;> rfl
  rw [reported, about_single (n := n) rfl, isKnown_standing]
  by_cases hp : n = p
  · simp [hp]
  · simp [hp]

theorem about_remove (b : AddressBook α) (n p : NodeId) :
    about p (b.remove n).2 = if n = p ∧ (b.standing p).isKnown then [.left p] else [] := by
  have reported : (b.remove n).2 = if b.addresses.contains n then [.left n] else [] := rfl
  rw [reported, about_single (n := n) rfl, isKnown_standing]
  by_cases hp : n = p
  · simp [hp]
  · simp [hp]

theorem about_see (b : AddressBook α) (e : NodeId × α) (p : NodeId) :
    about p (b.see e).2 = if e.1 = p ∧ (b.standing p).isKnown = false then [.joined p] else [] := by
  have known : (({ b with viewed := b.viewed.insert e.1 } : AddressBook α).standing p).isKnown =
      (b.standing p).isKnown := by
    rw [isKnown_standing, isKnown_standing]
  unfold see
  rw [about_add, known]

theorem collect_cons {β : Type} (step : AddressBook α → β → AddressBook α × List MembershipChange) (b : AddressBook α)
    (x : β) (rest : List β) :
    collect step b (x :: rest) =
      ((collect step (step b x).1 rest).1, (step b x).2 ++ (collect step (step b x).1 rest).2) :=
  rfl

theorem collect_induction {β : Type} {step : AddressBook α → β → AddressBook α × List MembershipChange}
    {P : AddressBook α → Prop} (h : P b) (xs : List β) (hstep : ∀ b x, P b → P (step b x).1) :
    P (collect step b xs).1 := by
  induction xs generalizing b with
  | nil => exact h
  | cons x xs ih => exact ih (hstep b x h)

theorem self_collect {β : Type} {step : AddressBook α → β → AddressBook α × List MembershipChange} (b : AddressBook α)
    (xs : List β) (hstep : ∀ b x, (step b x).1.self = b.self) : (collect step b xs).1.self = b.self :=
  collect_induction (P := fun x => x.self = b.self) rfl xs fun x y hx => (hstep x y).trans hx

theorem collect_remove (p : NodeId) {gone : List NodeId} (nodup : gone.Nodup) (b : AddressBook α) :
    (collect remove b gone).1.standing p = (if p ∈ gone then .unknown else b.standing p) ∧
      about p (collect remove b gone).2 = if p ∈ gone ∧ (b.standing p).isKnown then [.left p] else [] := by
  induction gone generalizing b with
  | nil => exact ⟨rfl, rfl⟩
  | cons n gone ih =>
    obtain ⟨fresh, nodup⟩ := List.nodup_cons.mp nodup
    obtain ⟨stands, told⟩ := ih nodup (b.remove n).1
    rw [collect_cons, about_append, told, about_remove]
    dsimp only
    rw [stands, standing_remove]
    by_cases hp : n = p
    · subst hp
      simp [fresh]
    · have hp' : ¬ p = n := Ne.symm hp
      simp [hp, hp']

theorem collect_see (p : NodeId) {listed : List (NodeId × α)} (nodup : (listed.map (·.1)).Nodup) (b : AddressBook α) :
    (∀ a, (p, a) ∈ listed → (collect see b listed).1.standing p = .viewed a) ∧
      (p ∉ listed.map (·.1) → (collect see b listed).1.standing p = b.standing p) ∧
      about p (collect see b listed).2 =
        if p ∈ listed.map (·.1) ∧ (b.standing p).isKnown = false then [.joined p] else [] := by
  induction listed generalizing b with
  | nil => exact ⟨fun a h => (by cases h), fun _ => rfl, rfl⟩
  | cons e listed ih =>
    rw [List.map_cons, List.nodup_cons] at nodup
    obtain ⟨fresh, nodup⟩ := nodup
    obtain ⟨here, absent, told⟩ := ih nodup (b.see e).1
    rw [collect_cons, about_append, told, about_see]
    dsimp only
    by_cases hp : e.1 = p
    · have absent : (collect see (b.see e).1 listed).1.standing p = .viewed e.2 := by
        rw [absent (hp ▸ fresh), standing_see, if_pos hp]
      have fresh : p ∉ listed.map (·.1) := hp ▸ fresh
      refine ⟨?_, ?_, ?_⟩
      · intro a ha
        rcases List.mem_cons.mp ha with rfl | ha
        · exact absent
        · exact absurd (List.mem_map_of_mem ha) fresh
      · intro hn
        exact absurd (by rw [List.map_cons, hp]; exact List.mem_cons_self) hn
      · rw [List.map_cons]
        simp [hp, fresh]
    · have hp' : ¬ p = e.1 := Ne.symm hp
      have same : (b.see e).1.standing p = b.standing p := by rw [standing_see, if_neg hp]
      rw [same] at absent ⊢
      refine ⟨?_, ?_, ?_⟩
      · intro a ha
        rcases List.mem_cons.mp ha with ha | ha
        · exact absurd (congrArg Prod.fst ha) hp'
        · exact here a ha
      · intro hn
        rw [List.map_cons, List.mem_cons] at hn
        exact absent fun hm => hn (.inr hm)
      · rw [if_neg fun h => hp h.1, List.nil_append, List.map_cons]
        simp only [List.mem_cons, hp', false_or]

/-- Of a node that is listed more than once the last address counts. -/
theorem get?_ofList_eq (members : List (NodeId × α)) (p : NodeId) :
    (Table.ofList members).get? p = lastAddress members p := by
  have go : ∀ (members : List (NodeId × α)) (t : Table NodeId α),
      (members.foldl (fun t e => t.insert e.1 e.2) t).get? p = (lastAddress members p).or (t.get? p) := by
    intro members
    induction members with
    | nil => intro t; rfl
    | cons e members ih =>
      intro t
      rw [List.foldl_cons, ih, Table.get?_insert]
      by_cases hp : e.1 = p
      · have last : lastAddress (e :: members) p = some ((lastAddress members p).getD e.2) := by
          unfold lastAddress
          rw [List.filter_cons_of_pos (by simpa using hp), List.getLast?_cons]
          cases (members.filter (·.1 = p)).getLast? <;> rfl
        rw [if_pos hp.symm, last]
        cases lastAddress members p <;> rfl
      · have last : lastAddress (e :: members) p = lastAddress members p := by
          unfold lastAddress
          rw [List.filter_cons_of_neg (by simpa using hp)]
        rw [if_neg (Ne.symm hp), last]
  have all := go members .empty
  rwa [Table.get?_empty, Option.or_none] at all

theorem nodup_of_sorted {l : List (NodeId × α)} (h : l.Pairwise (·.1 < ·.1)) : (l.map (·.1)).Nodup := by
  rw [List.nodup_iff_pairwise_ne, List.pairwise_map]
  refine h.imp ?_
  intro e e' hlt he
  rw [he] at hlt
  exact Key.irrefl _ hlt

theorem nodup_departed (b : AddressBook α) (members : List (NodeId × α)) : (b.departed members).Nodup :=
  (nodup_of_sorted b.viewed.table.sorted).filter _

theorem mem_departed {members : List (NodeId × α)} {p : NodeId} :
    p ∈ b.departed members ↔ b.viewed.contains p ∧ lastAddress members p = none := by
  rw [← get?_ofList_eq, Table.get?_eq_none_iff, departed, List.mem_filter, Roster.mem_members, Bool.not_eq_true']

/-- What a book reports of a node is the change of its standing. -/
structure Follows (b : AddressBook α) (x : Tiding α) (r : AddressBook α × List MembershipChange) : Prop where
  listed : r.1.Listed
  self : r.1.self = b.self
  standing : ∀ p, r.1.standing p = (b.standing p).after p x
  told : ∀ p, about p r.2 = (Standing.change? p (b.standing p) ((b.standing p).after p x)).toList

section Views

variable {members listed : List (NodeId × α)} {gone : List NodeId} {p : NodeId}

theorem mem_gone (hg : gone.Perm (b.departed members)) :
    p ∈ gone ↔ b.viewed.contains p ∧ lastAddress members p = none := by
  rw [hg.mem_iff, mem_departed]

theorem mem_listed (hl : listed.Perm (Table.ofList members).entries) {a : α} :
    (p, a) ∈ listed ↔ lastAddress members p = some a := by
  rw [hl.mem_iff, ← Table.get?_eq_some_iff, get?_ofList_eq]

theorem mem_keys_listed (hl : listed.Perm (Table.ofList members).entries) :
    p ∈ listed.map (·.1) ↔ (lastAddress members p).isSome := by
  rw [List.mem_map, Option.isSome_iff_exists]
  constructor
  · rintro ⟨⟨q, a⟩, he, rfl⟩
    exact ⟨a, (mem_listed hl).mp he⟩
  · rintro ⟨a, ha⟩
    exact ⟨(p, a), (mem_listed hl).mpr ha, rfl⟩

theorem not_mem_keys_listed (hl : listed.Perm (Table.ofList members).entries) (ha : lastAddress members p = none) :
    p ∉ listed.map (·.1) := by
  rw [mem_keys_listed hl, ha]
  simp

theorem nodup_gone (hg : gone.Perm (b.departed members)) : gone.Nodup :=
  hg.nodup_iff.mpr (nodup_departed b members)

theorem nodup_listed (hl : listed.Perm (Table.ofList members).entries) : (listed.map (·.1)).Nodup :=
  (hl.map _).nodup_iff.mpr (nodup_of_sorted (Table.ofList members).sorted)

variable (h : b.Listed) (hg : gone.Perm (b.departed members)) (hl : listed.Perm (Table.ofList members).entries)

include h hg hl

theorem standing_takeIn (p : NodeId) : (b.takeIn gone listed).1.standing p = (b.standing p).after p (.view members) := by
  obtain ⟨left, _⟩ := collect_remove p (nodup_gone hg) b
  obtain ⟨here, absent, _⟩ := collect_see p (nodup_listed hl) (collect remove b gone).1
  show (collect see (collect remove b gone).1 listed).1.standing p = _
  cases ha : lastAddress members p with
  | some a => rw [here a ((mem_listed hl).mpr ha), Standing.after_view_some ha]
  | none =>
    rw [Standing.after_view_none ha, absent (not_mem_keys_listed hl ha), left, h.isViewed_standing]
    by_cases hv : b.viewed.contains p
    · rw [if_pos ((mem_gone hg).mpr ⟨hv, ha⟩), if_pos hv]
    · rw [if_neg fun hm => hv ((mem_gone hg).mp hm).1, if_neg hv]

theorem about_takeIn (p : NodeId) : about p (b.takeIn gone listed).2 =
    (Standing.change? p (b.standing p) ((b.standing p).after p (.view members))).toList := by
  obtain ⟨left, toldLeft⟩ := collect_remove p (nodup_gone hg) b
  obtain ⟨_, _, toldJoined⟩ := collect_see p (nodup_listed hl) (collect remove b gone).1
  show about p ((collect remove b gone).2 ++ (collect see (collect remove b gone).1 listed).2) = _
  rw [about_append, toldLeft, toldJoined, left]
  cases ha : lastAddress members p with
  | some a =>
    have stays : p ∉ gone := fun hm => by rw [((mem_gone hg).mp hm).2] at ha; cases ha
    have there : p ∈ listed.map (·.1) := by rw [mem_keys_listed hl, ha]; rfl
    rw [Standing.after_view_some ha]
    cases hk : (b.standing p).isKnown <;> simp [stays, there, hk, Standing.change?]
  | none =>
    have unlisted := not_mem_keys_listed hl ha
    rw [Standing.after_view_none ha, h.isViewed_standing]
    by_cases hv : b.viewed.contains p
    · have goes : p ∈ gone := (mem_gone hg).mpr ⟨hv, ha⟩
      have known : (b.standing p).isKnown = true := (isKnown_standing b p).trans (h p hv)
      simp [goes, unlisted, known, hv, Standing.change?]
    · have stays : p ∉ gone := fun hm => hv ((mem_gone hg).mp hm).1
      simp [stays, unlisted, hv, Standing.change?]

theorem follows_takeIn : b.Follows (.view members) (b.takeIn gone listed) := by
  have removed : (collect remove b gone).1.Listed := collect_induction h gone fun b n hb => listed_remove hb n
  refine ⟨?_, ?_, standing_takeIn h hg hl, about_takeIn h hg hl⟩
  · exact collect_induction removed listed fun b e hb => listed_see hb e
  · exact (self_collect _ _ fun _ _ => rfl).trans (self_collect _ _ fun _ _ => rfl)

end Views

/-- News move the standing of each node as if it were the only one, whatever order they are taken in. -/
theorem Learns.after {x : Tiding α} {r : AddressBook α × List MembershipChange} (h : b.Listed) (learns : b.Learns x r) :
    b.Follows x r := by
  cases learns with
  | join n a =>
    refine ⟨listed_add h n a, rfl, ?_, ?_⟩
    · intro p
      rw [standing_add, ← h.isViewed_standing]
      rfl
    · intro p
      rw [about_add, Standing.after_join]
      by_cases hp : n = p
      · rw [if_pos hp]
        cases hk : (b.standing p).isKnown <;> cases (b.standing p).isViewed <;>
          simp [hp, hk, Standing.change?]
      · simp [hp, Standing.change?]
  | leave n =>
    refine ⟨listed_remove h n, rfl, standing_remove b n, ?_⟩
    intro p
    rw [about_remove, Standing.after_leave]
    by_cases hp : n = p
    · rw [if_pos hp]
      cases hk : (b.standing p).isKnown <;> simp [hp, hk, Standing.change?]
    · simp [hp, Standing.change?]
  | view hg hl => exact follows_takeIn h hg hl

/-- News that change no standing change nothing, and nothing is reported. -/
theorem Learns.nothing_new {x : Tiding α} {r : AddressBook α × List MembershipChange} (h : b.Listed)
    (known : ∀ p, (b.standing p).after p x = b.standing p) (learns : b.Learns x r) : r = (b, []) := by
  have follows := learns.after h
  refine Prod.ext ?_ ?_
  · refine follows.listed.ext h follows.self ?_
    intro p
    rw [follows.standing p, known p]
  · have silent : ∀ p, about p r.2 = [] := by
      intro p
      rw [follows.told p, known p, Standing.change?, if_pos rfl]
      rfl
    refine List.eq_nil_iff_forall_not_mem.mpr fun change hc => ?_
    have heard : change ∈ about change.node r.2 := List.mem_filter.mpr ⟨hc, by simp⟩
    rw [silent] at heard
    cases heard

end AddressBook

end Workshare
