import Workshare.Proofs.Manager.Moves

namespace Workshare

/-- Neither a question nor a work. -/
def Effect.isCalm (e : Effect) : Bool :=
  !e.isQuestion && !e.isHandOver

/-- A small change by which nobody is asked and no work handed over. -/
def Change.isCalm : Change → Bool
  | .emit e => e.isCalm
  | _ => true

theorem Move.Makes.isCalm {x : Move} {c : Change} (h : x.Makes c) (hx : x.isSubmission = false) : c.isCalm := by
  cases h with
  | ask => cases hx
  | handOver submitted => exact absurd submitted (Bool.eq_false_iff.mp hx)
  | _ => rfl

/-- The same manager later, which in between has neither asked a strategy nor handed a work over. -/
structure Murmurs (m m' : Manager) : Prop where
  id : m'.id = m.id
  outbox : ∃ news, m'.outbox = m.outbox ++ news ∧ ∀ e ∈ news, e.isCalm

namespace Murmurs

theorem refl (m : Manager) : Murmurs m m :=
  ⟨rfl, [], by simp, by simp⟩

theorem trans {a b c : Manager} (h : Murmurs a b) (h' : Murmurs b c) : Murmurs a c := by
  obtain ⟨news, hn, calm⟩ := h.outbox
  obtain ⟨more, hm, calm'⟩ := h'.outbox
  refine ⟨h'.id.trans h.id, news ++ more, by rw [hm, hn, List.append_assoc], ?_⟩
  intro e he
  rcases List.mem_append.mp he with he | he
  · exact calm e he
  · exact calm' e he

/-- Fields other than the outbox and the id do not count. -/
theorem of_eq {m m' : Manager} (hid : m'.id = m.id) (hout : m'.outbox = m.outbox) : Murmurs m m' :=
  ⟨hid, [], by simp [hout], by simp⟩

theorem emit (m : Manager) {e : Effect} (he : e.isCalm) : Murmurs m (m.emit e) :=
  ⟨rfl, [e], rfl, by simpa using he⟩

theorem isCalm_of_notification {l : Listener} {notice : Notice} {e : Effect}
    (h : l.notification? notice = some e) : e.isCalm := by
  obtain ⟨tag, _, rfl⟩ := Option.map_eq_some_iff.mp h
  rfl

theorem tell (m : Manager) (notice : Notice) : Murmurs m (m.tell notice) := by
  rw [Manager.tell_eq]
  refine ⟨rfl, _, rfl, ?_⟩
  intro e he
  obtain ⟨l, _, hl⟩ := List.mem_filterMap.mp he
  exact isCalm_of_notification hl

theorem hear (m : Manager) (notice : Notice) : Murmurs m (m.hear notice) := by
  rcases m.hear_cases notice with e | ⟨_, e⟩
  · rw [e]
    exact refl m
  · rw [e]
    refine trans ?_ (tell _ notice)
    exact of_eq rfl rfl

theorem addListener (m : Manager) (l : Listener) : Murmurs m (m.addListener l) := by
  rw [Manager.addListener_eq]
  split
  next => exact refl m
  next =>
    refine ⟨rfl, _, rfl, ?_⟩
    intro e he
    obtain ⟨notice, _, hn⟩ := List.mem_filterMap.mp he
    exact isCalm_of_notification hn

theorem record (m : Manager) (c : Counter) : Murmurs m (m.record c) := by
  rw [Manager.record_eq]
  refine ⟨rfl, _, rfl, ?_⟩
  intro e he
  obtain ⟨tag, _, rfl⟩ := Option.map_eq_some_iff.mp (Option.mem_toList.mp he)
  rfl

theorem persists : Persists (·.isCalm) Murmurs where
  refl := refl
  trans := trans
  change m x hx := by
    cases x with
    | emit e => exact emit m hx
    | record c => exact record m c
    | publish long free => exact hear m (.free m.id long free)
    | hear notice => exact hear m notice
    | listener l => exact addListener m l
    | _ => exact of_eq rfl rfl

theorem announce (m : Manager) (long : Bool) (free : UInt64) : Murmurs m (m.announce long free) :=
  persists.announce m rfl fun _ _ => rfl

theorem move (m : Manager) {x : Move} (hx : x.isSubmission = false) : Murmurs m (m.move x) :=
  persists.move m fun made => made.isCalm hx

end Murmurs

/-- A submission that is not routed hands its work to the executor, after everybody has been told. -/
theorem handOver_outbox (m : Manager) (free : Free) (mode : Mode) (work : Work) :
    ∃ told, (m.handOver free mode work).outbox = m.outbox ++ told ++ [.execute mode work] ∧
      ∀ e ∈ told, e.isCalm := by
  have h := Murmurs.announce m work.longRunning
    (if free.ofPool work.longRunning = 0 then 0 else free.ofPool work.longRunning - 1)
  obtain ⟨told, ht, calm⟩ := h.outbox
  exact ⟨told, by rw [← ht]; rfl, calm⟩

end Workshare
