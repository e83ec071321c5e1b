import Workshare.Proofs.Manager.Deltas

namespace Workshare

/-- A step count of another node, as far as it has been told here. -/
def Statistics.heard (s : Statistics) (p : NodeId) (c : Counter) : Nat :=
  ((s.peers.get? p).getD .zero).get c

/-- A small change by which no delta is sent or heard, but for the steps that are counted. -/
def Change.isSober : Change → Bool
  | .emit e => !e.isDelta
  | .hear (.delta _ _) => false
  | _ => true

theorem Move.Makes.isSober {x : Move} {c : Change} (h : x.Makes c) (quiet : ∀ origin c, x ≠ .hear (.delta origin c)) :
    c.isSober := by
  cases h with
  | @ask free mode work e asked => cases e <;> first | rfl | cases asked
  | @handOver x e submitted handed => cases e <;> first | rfl | cases handed
  | @hear notice =>
    cases notice with
    | delta origin c => exact absurd rfl (quiet origin c)
    | _ => rfl
  | _ => rfl

namespace Manager

/-- The same manager later: no more deltas have left it than it has counted, each in its own name. -/
structure Reports (m m' : Manager) : Prop where
  id : m'.id = m.id
  told : ∃ (news : List Effect) (steps : List Counter), m'.outbox = m.outbox ++ news ∧
    news.filterMap Effect.delta? = steps.map (m.id, ·) ∧
    ∀ c, m.statistics.own.get c + steps.count c ≤ m'.statistics.own.get c

theorem Reports.of_tells {m m' : Manager} (tells : Tells m m') : Reports m m' := by
  obtain ⟨news, steps, hn, hd, ho⟩ := tells.told
  exact ⟨tells.id, news, steps, hn, hd, fun c => Nat.le_of_eq (ho c).symm⟩

/-- Moreover it knows no more of the others. -/
structure Reckons (m m' : Manager) : Prop extends Reports m m' where
  heard : ∀ p c, m'.statistics.heard p c ≤ m.statistics.heard p c

namespace Reckons

theorem of_tells {m m' : Manager} (tells : Tells m m')
    (heard : ∀ p c, m'.statistics.heard p c ≤ m.statistics.heard p c) : Reckons m m' :=
  ⟨.of_tells tells, heard⟩

/-- What leaves both tallies alone, and says nothing of them. -/
theorem of_silent {m m' : Manager} (news : List Effect) (id : m'.id = m.id) (own : m'.statistics.own = m.statistics.own)
    (peers : m'.statistics.peers = m.statistics.peers) (out : m'.outbox = m.outbox ++ news)
    (silent : ∀ e ∈ news, e.delta? = none) : Reckons m m' := by
  refine ⟨⟨id, news, [], out, List.filterMap_eq_nil_iff.mpr silent, fun c => ?_⟩, fun p c => Nat.le_of_eq ?_⟩
  · rw [own]
    exact Nat.le_refl _
  · unfold Statistics.heard
    rw [peers]

theorem of_recalls {m m' : Manager} (tells : Tells m m') (recalls : Recalls m m') : Reckons m m' := by
  refine of_tells tells fun p c => Nat.le_of_eq ?_
  unfold Statistics.heard
  rw [recalls]

theorem refl (m : Manager) : Reckons m m :=
  of_recalls (.refl m) rfl

theorem trans {a b c : Manager} (h : Reckons a b) (h' : Reckons b c) : Reckons a c := by
  obtain ⟨news, steps, hn, hd, ho⟩ := h.told
  obtain ⟨news', steps', hn', hd', ho'⟩ := h'.told
  have heard : ∀ p d, c.statistics.heard p d ≤ a.statistics.heard p d :=
    fun p d => Nat.le_trans (h'.heard p d) (h.heard p d)
  refine ⟨⟨h'.id.trans h.id, news ++ news', steps ++ steps', ?_, ?_, ?_⟩, heard⟩
  · rw [hn', hn, List.append_assoc]
  · rw [List.filterMap_append, hd, hd', h.id, List.map_append]
  · intro d
    have first := ho d
    have second := ho' d
    rw [List.count_append]
    omega

/-- What is counted may be told, but need not. -/
theorem record (m : Manager) (c : Counter) : Reckons m (m.record c) := by
  have heard : Recalls m (m.record c) := Recalls.persists.change m (x := .record c) rfl
  cases told : m.statistics.replicatesTo with
  | some tag => exact of_recalls (.record (told ▸ rfl) c) heard
  | none =>
    rw [record_eq, told]
    refine ⟨⟨rfl, [], [], rfl, rfl, fun d => ?_⟩, fun _ _ => Nat.le_refl _⟩
    show m.statistics.own.get d + 0 ≤ (m.statistics.own.bump c).get d
    rw [Tally.get_bump]
    split <;> omega

/-- Only a delta makes a listener count for somebody else. -/
theorem heard_teach (l : Listener) {notice : Notice} (quiet : ∀ origin c, notice ≠ .delta origin c) (s : Statistics)
    (p : NodeId) (c : Counter) : (l.teach notice s).heard p c ≤ s.heard p c := by
  cases l with
  | statistics =>
    cases notice with
    | leave n =>
      show (s.forget n).heard p c ≤ _
      unfold Statistics.heard
      rw [Statistics.get?_forget]
      split
      next => rw [Option.getD_none, Tally.get_zero]; exact Nat.zero_le _
      next => exact Nat.le_refl _
    | delta origin d => exact absurd rfl (quiet origin d)
    | _ => exact Nat.le_refl _
  | waterMark tag mark => exact Nat.le_refl _
  | external tag => exact Nat.le_refl _

/-- The members may change before a notice is told that is no delta. -/
theorem told_after {m m₁ : Manager} (hid : m₁.id = m.id) (hs : m₁.statistics = m.statistics)
    (hout : m₁.outbox = m.outbox) {notice : Notice} (quiet : ∀ origin c, notice ≠ .delta origin c) :
    Reckons m (m₁.tell notice) := by
  refine of_tells (.told_after hid hs hout notice) fun p c => ?_
  have taught : ∀ (ls : List Listener) (s : Statistics),
      (ls.foldl (fun s l => l.teach notice s) s).heard p c ≤ s.heard p c := by
    intro ls
    induction ls with
    | nil => exact fun s => Nat.le_refl _
    | cons l ls ih => exact fun s => Nat.le_trans (ih _) (heard_teach l quiet s p c)
  rw [tell_eq, ← hs]
  exact taught m₁.listeners m₁.statistics

theorem hear (m : Manager) {notice : Notice} (quiet : ∀ origin c, notice ≠ .delta origin c) :
    Reckons m (m.hear notice) := by
  rcases m.hear_cases notice with e | ⟨_, e⟩
  · rw [e]
    exact refl m
  · rw [e]
    exact told_after (by rfl) (by rfl) (by rfl) quiet

theorem persists : Persists (·.isSober) Reckons where
  refl := refl
  trans := trans
  change m x hx := by
    cases x with
    | emit e => exact of_recalls (.emit m (Bool.not_eq_true' _ ▸ hx)) rfl
    | record c => exact record m c
    | publish long free =>
      have published : Reckons m (m.hear (.free m.id long free)) := hear m fun _ _ => nofun
      exact published
    | hear notice =>
      refine hear m fun origin c e => ?_
      rw [e] at hx
      cases hx
    | listener l => exact of_recalls (.addListener m l) (Recalls.addListener m l)
    | _ => exact of_silent [] rfl rfl rfl (List.append_nil _).symm nofun

/-- A delta makes a manager count once, for its origin. -/
theorem heard_delta {m : Manager} (sound : m.Sound) (origin p : NodeId) (c d : Counter) :
    (m.delta origin c).statistics.heard p d ≤
      m.statistics.heard p d + if origin = p ∧ c = d then 1 else 0 := by
  by_cases member : m.members.contains origin
  · unfold Statistics.heard
    rw [delta_peers sound member]
    split
    next h =>
      obtain ⟨rfl, _⟩ := h
      show ((((m.statistics.peers.get? p).getD .zero).bump c).get d) ≤ _
      rw [Tally.get_bump]
      by_cases same : d = c
      · simp [same]
      · simp [same]
    next => exact Nat.le_add_right _ _
  · unfold Manager.delta
    rw [if_neg member]
    exact Nat.le_add_right _ _

theorem move (m : Manager) {x : Move} (quiet : ∀ origin c, x ≠ .hear (.delta origin c)) : Reckons m (m.move x) :=
  persists.move m fun made => made.isSober quiet

end Reckons

end Manager

end Workshare
