namespace Workshare

/-- A decidable strict total order on keys. -/
class Key (κ : Type) extends LT κ where
  decEq : DecidableEq κ
  decLt (a b : κ) : Decidable (a < b)
  irrefl (a : κ) : ¬ a < a
  trans {a b c : κ} : a < b → b < c → a < c
  total (a b : κ) : a < b ∨ a = b ∨ b < a

instance Key.decidableEq {κ : Type} [Key κ] : DecidableEq κ := Key.decEq
instance Key.decidableLt {κ : Type} [Key κ] (a b : κ) : Decidable (a < b) := Key.decLt a b

instance : Key String where
  decEq := inferInstance
  decLt _ _ := inferInstance
  irrefl := String.lt_irrefl
  trans := String.lt_trans
  total a b := by
    by_cases h : a < b
    · exact .inl h
    · by_cases h' : b < a
      · exact .inr (.inr h')
      · exact .inr (.inl (String.le_antisymm h' h))

instance : Key Nat where
  decEq := inferInstance
  decLt _ _ := inferInstance
  irrefl := Nat.lt_irrefl
  trans := Nat.lt_trans
  total := Nat.lt_trichotomy

/-- A table sorted by key. It is determined by its lookups (`ext_get?`), so it does not remember the order in
which it was filled. -/
structure Table (κ α : Type) [Key κ] where
  entries : List (κ × α)
  sorted : entries.Pairwise (·.1 < ·.1) := by simp
  deriving Repr

namespace Table

variable {κ α β : Type} [Key κ]

instance [DecidableEq α] : DecidableEq (Table κ α) := fun s t =>
  if h : s.entries = t.entries then isTrue (by cases s; cases t; simp_all)
  else isFalse (by intro e; exact h (congrArg entries e))

def empty : Table κ α := ⟨[], .nil⟩

instance : Inhabited (Table κ α) := ⟨empty⟩

def find (k : κ) : List (κ × α) → Option α
  | [] => none
  | (k', v) :: rest => if k = k' then some v else find k rest

def place (k : κ) (v : α) : List (κ × α) → List (κ × α)
  | [] => [(k, v)]
  | (k', v') :: rest =>
    if k < k' then (k, v) :: (k', v') :: rest
    else if k = k' then (k, v) :: rest
    else (k', v') :: place k v rest

theorem mem_place {k : κ} {v : α} {e : κ × α} {l : List (κ × α)} (h : e ∈ place k v l) :
    e = (k, v) ∨ e ∈ l := by
  induction l with
  | nil => simpa [place] using h
  | cons hd tl ih =>
    simp only [place] at h
    split at h
    · simpa using h
    · split at h
      · rcases List.mem_cons.mp h with h | h
        · exact .inl h
        · exact .inr (List.mem_cons_of_mem _ h)
      · rcases List.mem_cons.mp h with h | h
        · exact .inr (h ▸ List.mem_cons_self)
        · exact (ih h).imp_right (List.mem_cons_of_mem _)

theorem pairwise_place (k : κ) (v : α) {l : List (κ × α)} (h : l.Pairwise (·.1 < ·.1)) :
    (place k v l).Pairwise (·.1 < ·.1) := by
  induction l with
  | nil => simp [place]
  | cons hd tl ih =>
    obtain ⟨hlt, htl⟩ := List.pairwise_cons.mp h
    simp only [place]
    split
    next hk =>
      refine List.pairwise_cons.mpr ⟨?_, h⟩
      intro e he
      rcases List.mem_cons.mp he with rfl | he
      · exact hk
      · exact Key.trans hk (hlt e he)
    next hk =>
      split
      next he => subst he; exact List.pairwise_cons.mpr ⟨hlt, htl⟩
      next hne =>
        refine List.pairwise_cons.mpr ⟨?_, ih htl⟩
        intro e he
        rcases mem_place he with rfl | he
        · exact ((Key.total k hd.1).resolve_left hk).resolve_left hne
        · exact hlt e he

def get? (t : Table κ α) (k : κ) : Option α :=
  find k t.entries

def contains (t : Table κ α) (k : κ) : Bool :=
  (t.get? k).isSome

def insert (t : Table κ α) (k : κ) (v : α) : Table κ α :=
  ⟨place k v t.entries, pairwise_place k v t.sorted⟩

def erase (t : Table κ α) (k : κ) : Table κ α :=
  ⟨t.entries.filter (·.1 ≠ k), t.sorted.filter _⟩

def keys (t : Table κ α) : List κ :=
  t.entries.map (·.1)

def size (t : Table κ α) : Nat :=
  t.entries.length

def isEmpty (t : Table κ α) : Bool :=
  t.entries.isEmpty

/-- Of equal keys the last counts. -/
def ofList (l : List (κ × α)) : Table κ α :=
  l.foldl (fun t e => t.insert e.1 e.2) empty

def mapValues (f : κ → α → β) (t : Table κ α) : Table κ β :=
  ⟨t.entries.map fun e => (e.1, f e.1 e.2), by
    have h := t.sorted
    rw [List.pairwise_map]
    exact h⟩

@[simp] theorem get?_empty (k : κ) : (empty : Table κ α).get? k = none := rfl

theorem find_place (k j : κ) (v : α) (l : List (κ × α)) :
    find j (place k v l) = if j = k then some v else find j l := by
  induction l with
  | nil => simp [place, find]
  | cons hd tl ih =>
    simp only [place]
    split
    · rfl
    · split
      next h => subst h; by_cases hj : j = hd.1 <;> simp [find, hj]
      next h =>
        by_cases hj : j = hd.1
        · subst hj; simp [find, Ne.symm h]
        · simp [find, hj, ih]

/-- Where a new key is put does not matter to whoever only adds up. -/
theorem place_perm {k : κ} (v : α) {l : List (κ × α)} (fresh : find k l = none) :
    (place k v l).Perm ((k, v) :: l) := by
  induction l with
  | nil => exact .refl _
  | cons e l ih =>
    rw [find] at fresh
    split at fresh
    next => cases fresh
    next other =>
      rw [place, if_neg other]
      split
      next => exact .refl _
      next => exact ((ih fresh).cons e).trans (.swap (k, v) e l)

theorem get?_insert (t : Table κ α) (k j : κ) (v : α) :
    (t.insert k v).get? j = if j = k then some v else t.get? j :=
  find_place k j v t.entries

theorem get?_erase (t : Table κ α) (k j : κ) :
    (t.erase k).get? j = if j = k then none else t.get? j := by
  have h : ∀ l : List (κ × α), find j (l.filter (·.1 ≠ k)) = if j = k then none else find j l := by
    intro l
    induction l with
    | nil => simp [find]
    | cons hd tl ih =>
      by_cases hk : hd.1 = k
      · by_cases hj : j = k
        · simp [hk, hj] at ih ⊢; exact ih
        · have : j ≠ hd.1 := fun e => hj (e.trans hk)
          simp [hk, find, hj] at ih ⊢; exact ih
      · by_cases hj : j = hd.1
        · subst hj; simp [find, hk]
        · simp [find, hj, hk] at ih ⊢; exact ih
  exact h t.entries

theorem find_eq_some_of_mem {k : κ} {v : α} {l : List (κ × α)} (hs : l.Pairwise (·.1 < ·.1))
    (h : (k, v) ∈ l) : find k l = some v := by
  induction l with
  | nil => simp at h
  | cons hd tl ih =>
    obtain ⟨hlt, htl⟩ := List.pairwise_cons.mp hs
    rcases List.mem_cons.mp h with h | h
    · subst h; simp [find]
    · have hne : k ≠ hd.1 := fun e => Key.irrefl k (by have := hlt _ h; rw [← e] at this; exact this)
      simp [find, hne, ih htl h]

theorem mem_of_find_eq_some {k : κ} {v : α} {l : List (κ × α)} (h : find k l = some v) : (k, v) ∈ l := by
  induction l with
  | nil => simp [find] at h
  | cons hd tl ih =>
    simp only [find] at h
    split at h
    next e => subst e; cases h; exact List.mem_cons_self
    next => exact List.mem_cons_of_mem _ (ih h)

theorem get?_eq_some_iff {t : Table κ α} {k : κ} {v : α} : t.get? k = some v ↔ (k, v) ∈ t.entries :=
  ⟨mem_of_find_eq_some, find_eq_some_of_mem t.sorted⟩

theorem mem_keys_iff {t : Table κ α} {k : κ} : k ∈ t.keys ↔ t.contains k := by
  constructor
  · intro h
    obtain ⟨e, he, rfl⟩ := List.mem_map.mp h
    simp [contains, get?_eq_some_iff.mpr he]
  · intro h
    obtain ⟨v, hv⟩ := Option.isSome_iff_exists.mp h
    exact List.mem_map.mpr ⟨(k, v), get?_eq_some_iff.mp hv, rfl⟩

/-- Below the first key nothing is found. -/
theorem find_eq_none {k : κ} {l : List (κ × α)} (above : ∀ e ∈ l, k < e.1) : find k l = none := by
  cases hx : find k l with
  | none => rfl
  | some v => exact absurd (above _ (mem_of_find_eq_some hx)) (Key.irrefl k)

theorem find_head (e : κ × α) (l : List (κ × α)) : find e.1 (e :: l) = some e.2 :=
  if_pos rfl

theorem not_lt_of_find_eq {e f : κ × α} {l m : List (κ × α)} (hm : ∀ x ∈ m, f.1 < x.1)
    (h : find e.1 (e :: l) = find e.1 (f :: m)) : ¬ e.1 < f.1 := by
  intro lower
  have nothing : find e.1 (f :: m) = none := by
    refine find_eq_none fun x hx => ?_
    rcases List.mem_cons.mp hx with rfl | hx
    · exact lower
    · exact Key.trans lower (hm x hx)
  rw [find_head, nothing] at h
  cases h

/-- Two lists in strictly ascending key order with the same lookups are equal. -/
theorem eq_of_find_eq : ∀ {l m : List (κ × α)}, l.Pairwise (·.1 < ·.1) → m.Pairwise (·.1 < ·.1) →
    (∀ k, find k l = find k m) → l = m
  | [], [], _, _, _ => rfl
  | [], e :: m, _, _, h => absurd ((h e.1).trans (find_head e m)).symm (Option.some_ne_none _)
  | e :: l, [], _, _, h => absurd ((find_head e l).symm.trans (h e.1)) (Option.some_ne_none _)
  | e :: l, f :: m, hl, hm, h => by
    obtain ⟨hel, hl'⟩ := List.pairwise_cons.mp hl
    obtain ⟨hfm, hm'⟩ := List.pairwise_cons.mp hm
    have key : e.1 = f.1 := by
      rcases Key.total e.1 f.1 with lower | same | higher
      · exact absurd lower (not_lt_of_find_eq hfm (h e.1))
      · exact same
      · exact absurd higher (not_lt_of_find_eq hel (h f.1).symm)
    have value : e.2 = f.2 := by
      have found := h e.1
      rw [find_head, key, find_head] at found
      exact Option.some.inj found
    have rest : l = m := by
      refine eq_of_find_eq hl' hm' fun k => ?_
      by_cases hk : k = e.1
      · rw [hk, find_eq_none hel, find_eq_none (key ▸ hfm)]
      · have found := h k
        simpa only [find, if_neg hk, if_neg (key ▸ hk)] using found
    rw [Prod.ext key value, rest]

theorem ext_get? {s t : Table κ α} (h : ∀ k, s.get? k = t.get? k) : s = t := by
  have := eq_of_find_eq s.sorted t.sorted h
  cases s; cases t; simp_all

@[simp] theorem contains_insert (t : Table κ α) (k j : κ) (v : α) :
    (t.insert k v).contains j = (decide (j = k) || t.contains j) := by
  unfold contains
  rw [get?_insert]
  split
  next h => simp [h]
  next h => simp [h]

@[simp] theorem contains_erase (t : Table κ α) (k j : κ) :
    (t.erase k).contains j = (!decide (j = k) && t.contains j) := by
  unfold contains
  rw [get?_erase]
  split
  next h => simp [h]
  next h => simp [h]

@[simp] theorem contains_empty (k : κ) : (empty : Table κ α).contains k = false := rfl

theorem get?_eq_none_iff {t : Table κ α} {k : κ} : t.get? k = none ↔ t.contains k = false := by
  simp [contains]

theorem find_map (f : κ → α → β) (k : κ) (l : List (κ × α)) :
    find k (l.map fun e => (e.1, f e.1 e.2)) = (find k l).map (f k) := by
  induction l with
  | nil => rfl
  | cons hd tl ih =>
    simp only [List.map_cons, find]
    split
    next h => subst h; rfl
    next => exact ih

theorem get?_mapValues (f : κ → α → β) (t : Table κ α) (k : κ) :
    (t.mapValues f).get? k = (t.get? k).map (f k) :=
  find_map f k t.entries

theorem keys_mapValues (f : κ → α → β) (t : Table κ α) : (t.mapValues f).keys = t.keys := by
  simp [keys, mapValues]

theorem keys_sorted (t : Table κ α) : t.keys.Pairwise (· < ·) :=
  List.pairwise_map.mpr t.sorted

theorem nodup_keys (t : Table κ α) : t.keys.Nodup := by
  unfold List.Nodup
  refine t.keys_sorted.imp ?_
  intro a b h hab
  rw [hab] at h
  exact Key.irrefl _ h

/-- Keys stand in order, so who has an entry determines the list of keys. -/
theorem keys_eq_of_contains_eq {s : Table κ α} {t : Table κ β}
    (h : ∀ k, s.contains k = t.contains k) : s.keys = t.keys := by
  have he : s.mapValues (fun _ _ => ()) = t.mapValues (fun _ _ => ()) := by
    apply ext_get?
    intro k
    rw [get?_mapValues, get?_mapValues]
    have hk := h k
    unfold contains at hk
    cases hs : s.get? k <;> cases ht : t.get? k <;> simp_all
  rw [← keys_mapValues (fun _ _ => ()) s, ← keys_mapValues (fun _ _ => ()) t, he]

end Table

end Workshare
