import Workshare.Text.Decimal

namespace Workshare.Decimal

theorem digit?_digitChar {d : Nat} (h : d < 10) : digit? (digitChar d) = some d := by
  have all : ∀ d < 10, digit? (digitChar d) = some d := by decide
  exact all d h

theorem digits_ne_nil (n : Nat) : digits n ≠ [] := by
  rw [digits]
  split <;> simp

theorem isDigit_of_mem_digits {n : Nat} {c : Char} (h : c ∈ digits n) : isDigit c := by
  induction n using digits.induct with
  | case1 n hn =>
    rw [digits, if_pos hn, List.mem_singleton] at h
    rw [h, isDigit, digit?_digitChar hn]
    rfl
  | case2 n hn ih =>
    rw [digits, if_neg hn] at h
    rcases List.mem_append.mp h with h | h
    · exact ih h
    · rw [List.mem_singleton] at h
      rw [h, isDigit, digit?_digitChar (by omega)]
      rfl

theorem ofDigits_digits (n : Nat) : ofDigits (digits n) = n := by
  induction n using digits.induct with
  | case1 n hn =>
    rw [digits, if_pos hn]
    simp [ofDigits, digit?_digitChar hn]
  | case2 n hn ih =>
    have last : (digit? (digitChar (n % 10))).getD 0 = n % 10 := by
      rw [digit?_digitChar (by omega)]
      rfl
    unfold ofDigits at ih ⊢
    rw [digits, if_neg hn, List.foldl_append, ih, List.foldl_cons, List.foldl_nil, last]
    omega

theorem head?_digits (n : Nat) : (digits n).head? = some '0' → n = 0 := by
  induction n using digits.induct with
  | case1 n hn =>
    have all : ∀ n < 10, (digits n).head? = some '0' → n = 0 := by
      intro n hn
      rw [digits, if_pos hn]
      revert n
      decide
    exact all n hn
  | case2 n hn ih =>
    intro h
    rw [digits, if_neg hn] at h
    cases hd : digits (n / 10) with
    | nil => exact absurd hd (digits_ne_nil _)
    | cons c cs =>
      rw [hd] at h ih
      have := ih h
      omega

theorem length_of_head?_digits {n : Nat} (h : (digits n).head? = some '0') : (digits n).length = 1 := by
  rw [head?_digits n h, digits]
  rfl

theorem le_foldl (a : Nat) (cs : List Char) : a ≤ cs.foldl (fun n c => n * 10 + (digit? c).getD 0) a := by
  induction cs generalizing a with
  | nil => exact Nat.le_refl a
  | cons c cs ih => exact Nat.le_trans (by omega) (ih (a * 10 + (digit? c).getD 0))

theorem readDigits_of_digits {bound a : Nat} {cs : List Char} (hd : ∀ c ∈ cs, isDigit c)
    (hb : cs.foldl (fun n c => n * 10 + (digit? c).getD 0) a < bound) :
    readDigits bound a cs = .ok (cs.foldl (fun n c => n * 10 + (digit? c).getD 0) a) := by
  induction cs generalizing a with
  | nil => rfl
  | cons c cs ih =>
    obtain ⟨d, hc⟩ := Option.isSome_iff_exists.mp (hd c List.mem_cons_self)
    have first : (digit? c).getD 0 = d := by rw [hc]; rfl
    rw [List.foldl_cons, first] at hb ⊢
    have below := Nat.lt_of_le_of_lt (le_foldl (a * 10 + d) cs) hb
    unfold readDigits
    rw [hc]
    dsimp only
    rw [if_pos below]
    exact ih (fun c hc => hd c (List.mem_cons_of_mem _ hc)) hb

/-- What `text` writes is read again, if the bound allows it. -/
theorem read_text {bound n : Nat} (h : n < bound) : read bound (text n) = .ok n := by
  have value : readDigits bound 0 (digits n) = .ok n := by
    have back := ofDigits_digits n
    unfold ofDigits at back
    have := readDigits_of_digits (a := 0) (fun c hc => isDigit_of_mem_digits hc) (back.symm ▸ h)
    rw [this, back]
  have unsigned : ∀ cs, digits n ≠ '+' :: cs := by
    intro cs plus
    have digit : isDigit '+' := isDigit_of_mem_digits (n := n) (by rw [plus]; exact List.mem_cons_self)
    exact absurd digit (by decide)
  unfold read text
  rw [String.toList_ofList]
  split
  next empty => exact absurd empty (digits_ne_nil n)
  next plus => exact absurd plus (unsigned [])
  next cs _ plus => exact absurd plus (unsigned cs)
  next => exact value

end Workshare.Decimal
