import Mathlib.Algebra.Group.Int.Defs
import Mathlib.Algebra.Group.Nat.Defs
import Workshare.Json.Shape
import Workshare.Proofs.Text.Decimal

namespace Workshare.Json

theorem skipBlanks_cons {c : Char} (h : isBlank c = false) (cs : List Char) : skipBlanks (c :: cs) = c :: cs := by
  rw [skipBlanks, List.dropWhile_cons_of_neg (by simp [h])]

theorem ne_of_isDigit {c d : Char} (h : Decimal.isDigit c) (hd : Decimal.isDigit d = false) : c ≠ d := by
  rintro rfl
  rw [h] at hd
  cases hd

theorem isBlank_of_isDigit {c : Char} (h : Decimal.isDigit c) : isBlank c = false := by
  have hne : ∀ {d}, Decimal.isDigit d = false → c ≠ d := ne_of_isDigit h
  unfold isBlank
  rw [decide_eq_false (hne (by decide)), decide_eq_false (hne (by decide)), decide_eq_false (hne (by decide)),
    decide_eq_false (hne (by decide))]
  rfl

theorem digits_cons (n : Nat) : ∃ c cs, Decimal.digits n = c :: cs ∧ Decimal.isDigit c := by
  cases hd : Decimal.digits n with
  | nil => exact absurd hd (Decimal.digits_ne_nil n)
  | cons c cs => exact ⟨c, cs, rfl, Decimal.isDigit_of_mem_digits (hd ▸ List.mem_cons_self)⟩

theorem readValue_digits {c : Char} (h : Decimal.isDigit c) (fuel : Nat) (cs : List Char) :
    readValue (fuel + 1) (c :: cs) = (.num (readNumber false (c :: cs)).1, (readNumber false (c :: cs)).2) := by
  have hne : ∀ {d}, Decimal.isDigit d = false → c ≠ d := ne_of_isDigit h
  rw [readValue, skipBlanks_cons (isBlank_of_isDigit h)]
  dsimp only
  rw [if_neg (hne (by decide)), if_neg (hne (by decide)), if_neg (hne (by decide)), if_neg (hne (by decide)), if_pos h]

/-- What may follow a value inside brackets, or nothing at all. -/
def Stops (rest : List Char) : Prop :=
  rest = [] ∨ ∃ c cs, rest = c :: cs ∧ (c = ',' ∨ c = ']' ∨ c = '\x7d')

theorem Stops.head {rest : List Char} (h : Stops rest) {c : Char} (hc : rest.head? = some c) :
    Decimal.isDigit c = false ∧ c ≠ '.' ∧ c ≠ 'e' ∧ c ≠ 'E' := by
  obtain rfl | ⟨d, cs, rfl, hd⟩ := h
  · cases hc
  · cases hc
    rcases hd with rfl | rfl | rfl <;> decide

/-- The digits of an exponent, from after its sign. -/
def exponentDigits (t : NumberText) (negative : Bool) (cs : List Char) : Leaf Number × List Char :=
  if (cs.takeWhile Decimal.isDigit).isEmpty then shortNumber (cs.dropWhile Decimal.isDigit)
  else (⟨{ t with exponent := some (negative, cs.takeWhile Decimal.isDigit) }.value, none⟩,
    cs.dropWhile Decimal.isDigit)

section Numbers

variable {t : NumberText} {cs rest : List Char} {leaf : Leaf Number} {x : Number}

theorem takeWhile_append_stops (h : Stops rest) (cs : List Char) :
    (cs ++ rest).takeWhile Decimal.isDigit = cs.takeWhile Decimal.isDigit := by
  induction cs with
  | nil =>
    cases rest with
    | nil => rfl
    | cons c rest => simp [(h.head rfl).1]
  | cons c cs ih => cases hc : Decimal.isDigit c <;> simp [hc, ih]

theorem dropWhile_append_stops (h : Stops rest) (cs : List Char) :
    (cs ++ rest).dropWhile Decimal.isDigit = cs.dropWhile Decimal.isDigit ++ rest := by
  induction cs with
  | nil =>
    cases rest with
    | nil => rfl
    | cons c rest => simp [(h.head rfl).1]
  | cons c cs ih => cases hc : Decimal.isDigit c <;> simp [hc, ih]

theorem shortNumber_strict (h : shortNumber cs = (leaf, rest)) : leaf.strict ≠ .ok x := by
  cases h
  rintro ⟨⟩

theorem exponentDigits_append (h : Stops rest) {negative : Bool} (hx : leaf.strict = .ok x)
    (hr : exponentDigits t negative cs = (leaf, [])) : exponentDigits t negative (cs ++ rest) = (leaf, rest) := by
  unfold exponentDigits at hr ⊢
  rw [takeWhile_append_stops h, dropWhile_append_stops h]
  split at hr
  next => exact absurd hx (shortNumber_strict hr)
  next filled =>
    obtain ⟨rfl, empty⟩ := Prod.mk.inj hr
    rw [if_neg filled, empty]
    rfl

theorem readExponent_unsigned {c : Char} (plus : c ≠ '+') (minus : c ≠ '-') (cs : List Char) :
    readExponent t (c :: cs) = exponentDigits t false (c :: cs) := by
  unfold readExponent
  split
  next he =>
    split at he
    next hc => cases hc; exact absurd rfl plus
    next hc => cases hc; exact absurd rfl minus
    next => cases he; rfl

theorem readExponent_append (h : Stops rest) (hx : leaf.strict = .ok x) (hr : readExponent t cs = (leaf, [])) :
    readExponent t (cs ++ rest) = (leaf, rest) := by
  cases cs with
  | nil => exact absurd hx (shortNumber_strict hr)
  | cons c cs =>
    by_cases plus : c = '+'
    · subst plus
      have read : exponentDigits t false cs = (leaf, []) := hr
      exact exponentDigits_append h hx read
    by_cases minus : c = '-'
    · subst minus
      have read : exponentDigits t true cs = (leaf, []) := hr
      exact exponentDigits_append h hx read
    rw [readExponent_unsigned plus minus] at hr
    rw [List.cons_append, readExponent_unsigned plus minus]
    exact exponentDigits_append h hx hr

theorem readFraction_append (h : Stops rest) (hx : leaf.strict = .ok x) (hr : readFraction t cs = (leaf, [])) :
    readFraction t (cs ++ rest) = (leaf, rest) := by
  unfold readFraction at hr ⊢
  dsimp only at hr ⊢
  rw [takeWhile_append_stops h, dropWhile_append_stops h]
  split at hr
  next => exact absurd hx (shortNumber_strict hr)
  next filled =>
    rw [if_neg filled]
    split at hr
    next cs' he => rw [he]; exact readExponent_append h hx hr
    next cs' he => rw [he]; exact readExponent_append h hx hr
    next cs' he hE =>
      obtain ⟨rfl, empty⟩ := Prod.mk.inj hr
      rw [empty, List.nil_append]
      split
      next he => exact absurd rfl (h.head rfl).2.2.1
      next he => exact absurd rfl (h.head rfl).2.2.2
      next => rfl

/-- A number that ends with the text is read as itself before anything that does not belong to it. -/
theorem readNumber_append (h : Stops rest) {negative : Bool} (hx : leaf.strict = .ok x)
    (hr : readNumber negative cs = (leaf, [])) : readNumber negative (cs ++ rest) = (leaf, rest) := by
  unfold readNumber at hr ⊢
  dsimp only at hr ⊢
  rw [takeWhile_append_stops h, dropWhile_append_stops h]
  split at hr
  next => exact absurd hx (shortNumber_strict hr)
  next filled =>
    rw [if_neg filled]
    split at hr
    next => obtain ⟨rfl, _⟩ := Prod.mk.inj hr; cases hx
    next single =>
      rw [if_neg single]
      split at hr
      next cs' he => rw [he]; exact readFraction_append h hx hr
      next cs' he => rw [he]; exact readExponent_append h hx hr
      next cs' he => rw [he]; exact readExponent_append h hx hr
      next cs' he hE =>
        obtain ⟨rfl, empty⟩ := Prod.mk.inj hr
        rw [empty, List.nil_append]
        split
        next he => exact absurd rfl (h.head rfl).2.1
        next he => exact absurd rfl (h.head rfl).2.2.1
        next he => exact absurd rfl (h.head rfl).2.2.2
        next => rfl

/-- A number is cut short, or its pieces are put together. -/
theorem readNumber_leaf {P : Leaf Number → Prop} (failed : ∀ f s, P ⟨.error f, s⟩)
    (value : ∀ t : NumberText, P ⟨t.value, none⟩) (negative : Bool) (cs : List Char) : P (readNumber negative cs).1 := by
  have exponent : ∀ (t : NumberText) cs, P (readExponent t cs).1 := by
    intro t cs
    unfold readExponent
    split
    next =>
      dsimp only
      split
      next => exact failed _ _
      next => exact value _
  have fraction : ∀ (t : NumberText) cs, P (readFraction t cs).1 := by
    intro t cs
    unfold readFraction
    dsimp only
    split
    next => exact failed _ _
    next =>
      split
      next => exact exponent _ _
      next => exact exponent _ _
      next => exact value _
  unfold readNumber
  dsimp only
  split
  next => exact failed _ _
  next =>
    split
    next => exact failed _ _
    next =>
      split
      next => exact fraction _ _
      next => exact exponent _ _
      next => exact exponent _ _
      next => exact value _

/-- A number that is taken at all is also skipped without a fault. -/
theorem Leaf.eq_of_readNumber {leaf : Leaf Number} {x : Number} {negative : Bool} {cs rest : List Char}
    (hr : readNumber negative cs = (leaf, rest)) (hx : leaf.strict = .ok x) : leaf = ⟨.ok x, none⟩ := by
  have skipped : (readNumber negative cs).1.strict = .ok x → (readNumber negative cs).1.skipped = none :=
    readNumber_leaf (P := fun leaf => leaf.strict = .ok x → leaf.skipped = none) (fun f s h => by cases h)
      (fun t _ => rfl) negative cs
  rw [hr] at skipped
  obtain ⟨strict, skip⟩ := leaf
  cases hx
  rw [show skip = none from skipped rfl]

theorem mem_of_mem_readExponent {c : Char} (h : c ∈ (readExponent t cs).2) : c ∈ cs := by
  have after : ∀ {cs : List Char} (negative : Bool), c ∈ (exponentDigits t negative cs).2 → c ∈ cs := by
    intro cs negative h
    unfold exponentDigits at h
    split at h <;> exact (List.dropWhile_sublist _).mem h
  cases cs with
  | nil => exact h
  | cons d cs =>
    by_cases plus : d = '+'
    · subst plus
      exact List.mem_cons_of_mem _ (after false h)
    by_cases minus : d = '-'
    · subst minus
      exact List.mem_cons_of_mem _ (after true h)
    rw [readExponent_unsigned plus minus] at h
    exact after false h

theorem mem_of_mem_readFraction {c : Char} (h : c ∈ (readFraction t cs).2) : c ∈ cs := by
  have after : ∀ {d : Char} {more : List Char}, cs.dropWhile Decimal.isDigit = d :: more → c ∈ more → c ∈ cs := by
    intro d more he hc
    exact (List.dropWhile_sublist _).mem (he ▸ List.mem_cons_of_mem _ hc)
  unfold readFraction at h
  dsimp only at h
  split at h
  next => exact (List.dropWhile_sublist _).mem h
  next =>
    split at h
    next he => exact after he (mem_of_mem_readExponent h)
    next he => exact after he (mem_of_mem_readExponent h)
    next => exact (List.dropWhile_sublist _).mem h

/-- What a number leaves over is part of the text. -/
theorem mem_of_mem_readNumber {negative : Bool} {c : Char} (h : c ∈ (readNumber negative cs).2) : c ∈ cs := by
  have after : ∀ {d : Char} {more : List Char}, cs.dropWhile Decimal.isDigit = d :: more → c ∈ more → c ∈ cs := by
    intro d more he hc
    exact (List.dropWhile_sublist _).mem (he ▸ List.mem_cons_of_mem _ hc)
  unfold readNumber at h
  dsimp only at h
  split at h
  next => exact (List.dropWhile_sublist _).mem h
  next =>
    split at h
    next => exact (List.dropWhile_sublist _).mem h
    next =>
      split at h
      next he => exact after he (mem_of_mem_readFraction h)
      next he => exact after he (mem_of_mem_readExponent h)
      next he => exact after he (mem_of_mem_readExponent h)
      next => exact (List.dropWhile_sublist _).mem h

end Numbers

theorem takeWhile_digits {rest : List Char} (h : Stops rest) (n : Nat) :
    (Decimal.digits n ++ rest).takeWhile Decimal.isDigit = Decimal.digits n ∧
      (Decimal.digits n ++ rest).dropWhile Decimal.isDigit = rest := by
  have all : ∀ c ∈ Decimal.digits n, Decimal.isDigit c := fun c hc => Decimal.isDigit_of_mem_digits hc
  rw [List.takeWhile_append_of_pos all, List.dropWhile_append_of_pos all]
  obtain rfl | ⟨c, cs, rfl, hc⟩ := h
  · simp
  · have hd : Decimal.isDigit c = false := by rcases hc with rfl | rfl | rfl <;> decide
    simp [hd]

theorem readNumber_digits {rest : List Char} (h : Stops rest) (negative : Bool) (n : Nat) :
    readNumber negative (Decimal.digits n ++ rest) =
      (⟨NumberText.value ⟨negative, Decimal.digits n, none, none⟩, none⟩, rest) := by
  obtain ⟨ht, hd⟩ := takeWhile_digits h n
  have filled : (Decimal.digits n).isEmpty = false := List.isEmpty_eq_false_iff.mpr (Decimal.digits_ne_nil n)
  have alone : ¬ ((Decimal.digits n).head? = some '0' ∧ 1 < (Decimal.digits n).length) := by
    rintro ⟨h0, hl⟩
    have := Decimal.length_of_head?_digits h0
    omega
  unfold readNumber
  simp only [ht, hd, filled, Bool.false_eq_true, if_false, if_neg alone]
  obtain rfl | ⟨c, cs, rfl, rfl | rfl | rfl⟩ := h <;> rfl

theorem takeSignificand_of_lt {a : Nat} {cs : List Char}
    (h : cs.foldl (fun n c => n * 10 + (Decimal.digit? c).getD 0) a < UInt64.size) :
    takeSignificand a cs = (cs.foldl (fun n c => n * 10 + (Decimal.digit? c).getD 0) a, cs.length, 0) := by
  induction cs generalizing a with
  | nil => rfl
  | cons c cs ih =>
    rw [List.foldl_cons] at h
    have small := Nat.lt_of_le_of_lt (Decimal.le_foldl _ cs) h
    rw [takeSignificand, if_pos small, ih h]
    rfl

theorem value_digits {n : Nat} (hn : n < 2 ^ 64) :
    NumberText.value ⟨false, Decimal.digits n, none, none⟩ = .ok (.int n) := by
  have whole : takeSignificand 0 (Decimal.digits n) = (n, (Decimal.digits n).length, 0) := by
    have read := Decimal.ofDigits_digits n
    unfold Decimal.ofDigits at read
    rw [takeSignificand_of_lt (by rw [read]; exact hn), read]
  unfold NumberText.value
  rw [whole]
  rfl

theorem value_negative_digits {n : Nat} (h0 : 0 < n) (hn : n ≤ 2 ^ 63) :
    NumberText.value ⟨true, Decimal.digits n, none, none⟩ = .ok (.int (-n)) := by
  have whole : takeSignificand 0 (Decimal.digits n) = (n, (Decimal.digits n).length, 0) := by
    have read := Decimal.ofDigits_digits n
    unfold Decimal.ofDigits at read
    rw [takeSignificand_of_lt (by rw [read]; simp only [UInt64.size]; omega), read]
  have exact : ¬ (n = 0 ∨ UInt64.size < 2 * n) := by
    simp only [UInt64.size]
    omega
  unfold NumberText.value
  rw [whole]
  simp only [ne_eq, not_true_eq_false, if_false, Bool.not_true, Bool.false_eq_true, if_neg exact]

end Workshare.Json
