import Workshare.Proofs.Manager.Deltas

namespace Workshare

namespace Counter

/-- An outcome counts for the balance, an admission against it. -/
def weight : Counter → Int
  | .workSuccessful => 1
  | .workFailed => 1
  | .doWorkAccepted => -1
  | .startWorkAccepted => -1
  | .scheduleWorkAccepted => -1
  | .doWorkRejected => 0
  | .startWorkRejected => 0
  | .scheduleWorkRejected => 0

end Counter

namespace Tally

/-- The works that were given a worker, as far as they are counted. -/
def admitted (t : Tally Nat) : Nat :=
  t.doWorkAccepted + t.startWorkAccepted + t.scheduleWorkAccepted

/-- The works that have ended. -/
def outcomes (t : Tally Nat) : Nat :=
  t.workSuccessful + t.workFailed

def balance (t : Tally Nat) : Int :=
  t.outcomes - t.admitted

theorem balance_bump (t : Tally Nat) (c : Counter) : (t.bump c).balance = t.balance + c.weight := by
  unfold balance outcomes admitted
  cases c <;> simp [bump, ofFn, get, Counter.weight] <;> omega

end Tally

/-- By how much a move changes the balance. -/
def Move.weight : Move → Int
  | .count c => c.weight
  | .complete _ _ _ => 1
  | .settle mode outcome => (mode.admission outcome).weight
  | _ => 0

theorem Move.weight_eq (x : Move) : x.weight = (x.records.map Counter.weight).getD 0 := by
  cases x with
  | complete free long success => cases success <;> rfl
  | _ => rfl

/-- A move that makes nobody a member and dismisses nobody. -/
def Move.isInner : Move → Bool
  | .hear (.join _) => false
  | .hear (.leave _) => false
  | .disband => false
  | _ => true

namespace Manager

def balance (m : Manager) : Int :=
  m.statistics.own.balance

/-- A manager some moves later: the members are the same, and the balance has changed by the weight of the moves. -/
structure Stirs (m m' : Manager) (weight : Int) : Prop where
  id : m'.id = m.id
  members : m'.members = m.members
  sound : Sound m → Sound m'
  balance : m'.balance = m.balance + weight

@[simp] theorem own_tell (m : Manager) (notice : Notice) : (m.tell notice).statistics.own = m.statistics.own := by
  rw [tell_eq]
  exact (Tells.own_foldl_teach notice m.listeners m.statistics).1

theorem own_record (m : Manager) (c : Counter) : (m.record c).statistics.own = m.statistics.own.bump c := by
  rw [record_eq]
  rfl

theorem persists_own : Persists (fun x => ∀ c, x ≠ .record c) fun m m' => m'.statistics.own = m.statistics.own where
  refl _ := rfl
  trans h h' := h'.trans h
  change m x hx := by
    have heard : ∀ notice, (m.hear notice).statistics.own = m.statistics.own := by
      intro notice
      rcases m.hear_cases notice with e | ⟨_, e⟩
      · rw [e]
      · rw [e, own_tell]
    cases x with
    | record c => exact absurd rfl (hx c)
    | publish long free => exact heard (.free m.id long free)
    | hear notice => exact heard notice
    | listener l =>
      rw [change, addListener_eq]
      split
      next => rfl
      next => exact (Tells.own_foldl_hear _ l m.statistics).1
    | _ => rfl

/-- The own tally goes up by what a move counts, and never else. -/
theorem own_move (m : Manager) (x : Move) :
    (m.move x).statistics.own = x.records.elim m.statistics.own m.statistics.own.bump := by
  cases counted : x.records with
  | none =>
    refine persists_own.move m fun made c e => ?_
    subst e
    cases made with
    | record some => cases counted.symm.trans some
  | some c =>
    cases x with
    | count d =>
      cases counted
      exact own_record m c
    | complete free long success =>
      cases counted
      refine Eq.trans ?_ (own_record m _)
      exact persists_own.announce _ (fun _ => nofun) fun _ _ _ => nofun
    | settle mode outcome =>
      cases counted
      exact own_record m _
    | _ => cases counted

theorem balance_move (m : Manager) (x : Move) : (m.move x).balance = m.balance + x.weight := by
  unfold balance
  rw [own_move, Move.weight_eq]
  cases x.records with
  | none => exact (Int.add_zero _).symm
  | some c => exact Tally.balance_bump _ c

theorem members_move (m : Manager) {x : Move} (hx : x.isInner) : (m.move x).members = m.members := by
  cases x with
  | hear notice =>
    cases notice with
    | join n => cases hx
    | leave n => cases hx
    | free n long workers => exact updateFree_members m n long workers
    | delta origin c => exact (Steady.delta m origin c).members
  | disband => cases hx
  | _ => exact (Steady.move m rfl).members

namespace Stirs

theorem move (m : Manager) {x : Move} (hx : x.isInner) : Stirs m (m.move x) x.weight :=
  ⟨move_id m x, members_move m hx, fun sound => sound.move x, balance_move m x⟩

/-- What a manager asks for belongs to nobody's balance. -/
theorem drain {m m' : Manager} {weight : Int} (h : Stirs m m' weight) : Stirs m m'.drain.2 weight :=
  ⟨h.id, h.members, fun sound => (h.sound sound).of_eq rfl rfl rfl rfl rfl rfl, h.balance⟩

theorem refl (m : Manager) : Stirs m m 0 :=
  ⟨rfl, rfl, fun sound => sound, (Int.add_zero _).symm⟩

end Stirs

end Manager

end Workshare
