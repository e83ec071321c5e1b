namespace Except

variable {ε α β σ : Type}

theorem exists_of_bind {x : Except ε α} {f : α → Except ε β} {b : β} (h : x.bind f = .ok b) :
    ∃ a, x = .ok a ∧ f a = .ok b := by
  cases x with
  | error e => cases h
  | ok a => exact ⟨a, rfl, h⟩

theorem exists_of_map {x : Except ε α} {f : α → β} {b : β} (h : x.map f = .ok b) : ∃ a, x = .ok a ∧ f a = b := by
  cases x with
  | error e => cases h
  | ok a => exact ⟨a, rfl, Except.ok.inj h⟩

theorem error_of_bind {x : Except ε α} {f : α → Except ε β} {e : ε} (h : x.bind f = .error e) :
    x = .error e ∨ ∃ a, x = .ok a ∧ f a = .error e := by
  cases x with
  | error e' => exact .inl (congrArg Except.error (Except.error.inj h))
  | ok a => exact .inr ⟨a, rfl, h⟩

theorem error_of_map {x : Except ε α} {f : α → β} {e : ε} (h : x.map f = .error e) : x = .error e := by
  cases x with
  | error e' => exact congrArg Except.error (Except.error.inj h)
  | ok a => cases h

theorem foldlM_keeps {P : σ → Prop} {f : σ → α → Except ε σ} {as : List α}
    (keeps : ∀ a ∈ as, ∀ s s', P s → f s a = .ok s' → P s') {s t : σ} (hs : P s) (h : as.foldlM f s = .ok t) : P t := by
  induction as generalizing s with
  | nil => cases h; exact hs
  | cons a as ih =>
    rw [List.foldlM_cons] at h
    obtain ⟨s', first, h⟩ := exists_of_bind h
    exact ih (fun a' ha' => keeps a' (List.mem_cons_of_mem a ha')) (keeps a List.mem_cons_self s s' hs first) h

end Except
