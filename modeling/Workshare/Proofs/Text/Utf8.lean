import Workshare.Text.Utf8

namespace Workshare.Utf8

theorem toNat_toUInt8 {n : Nat} (h : n < 256) : n.toUInt8.toNat = n :=
  UInt8.toNat_ofNat_of_lt h

theorem isContinuation_toUInt8 {n : Nat} (h : n < 0x40) : isContinuation (0x80 + n).toUInt8 := by
  unfold isContinuation
  rw [toNat_toUInt8 (by omega)]
  simp only [Bool.and_eq_true, decide_eq_true_eq]
  omega

theorem scalar_bounds (c : Char) : c.toNat < 0xD800 ∨ 0xE000 ≤ c.toNat ∧ c.toNat < 0x110000 := by
  have h : c.val.toNat < 0xD800 ∨ 0xDFFF < c.val.toNat ∧ c.val.toNat < 0x110000 := c.valid
  have he : c.toNat = c.val.toNat := rfl
  omega

section Sequences

variable (i : Nat) (bs : List UInt8) {c : Char}

theorem decodeFrom_single (h : c.toNat < 0x80) :
    decodeFrom i (c.toNat.toUInt8 :: bs) = (decodeFrom (i + 1) bs).map (c :: ·) := by
  have hn : c.toNat.toUInt8.toNat = c.toNat := toNat_toUInt8 (by omega)
  have hl : lead c.toNat = .single := if_pos h
  rw [decodeFrom]
  simp only [hn, hl, Char.ofNat_toNat]

theorem decodeFrom_double (h : ¬ c.toNat < 0x80) (h' : c.toNat < 0x800) :
    decodeFrom i ((0xC0 + c.toNat / 0x40).toUInt8 :: (0x80 + c.toNat % 0x40).toUInt8 :: bs) =
      (decodeFrom (i + 2) bs).map (c :: ·) := by
  have h₀ : (0xC0 + c.toNat / 0x40).toUInt8.toNat = 0xC0 + c.toNat / 0x40 := toNat_toUInt8 (by omega)
  have h₁ : (0x80 + c.toNat % 0x40).toUInt8.toNat = 0x80 + c.toNat % 0x40 := toNat_toUInt8 (by omega)
  have hl : lead (0xC0 + c.toNat / 0x40) = .multi 2 0x80 0xBF := by
    unfold lead
    rw [if_neg (by omega), if_neg (by omega), if_pos (by omega)]
  have hr : ¬ (0x80 + c.toNat % 0x40 < 0x80 ∨ 0xBF < 0x80 + c.toNat % 0x40) := by omega
  have hv : (0xC0 + c.toNat / 0x40 - 0xC0) * 0x40 + (0x80 + c.toNat % 0x40 - 0x80) = c.toNat := by omega
  rw [decodeFrom]
  simp only [h₀, hl, h₁, if_neg hr, if_true, hv, Char.ofNat_toNat]

/-- The lead byte of three keeps overlong forms and surrogates out. -/
theorem decodeFrom_triple (h : ¬ c.toNat < 0x800) (h' : c.toNat < 0x10000) :
    decodeFrom i ((0xE0 + c.toNat / 0x1000).toUInt8 :: (0x80 + c.toNat / 0x40 % 0x40).toUInt8 ::
        (0x80 + c.toNat % 0x40).toUInt8 :: bs) =
      (decodeFrom (i + 3) bs).map (c :: ·) := by
  have h₀ : (0xE0 + c.toNat / 0x1000).toUInt8.toNat = 0xE0 + c.toNat / 0x1000 := toNat_toUInt8 (by omega)
  have h₁ : (0x80 + c.toNat / 0x40 % 0x40).toUInt8.toNat = 0x80 + c.toNat / 0x40 % 0x40 := toNat_toUInt8 (by omega)
  have h₂ : (0x80 + c.toNat % 0x40).toUInt8.toNat = 0x80 + c.toNat % 0x40 := toNat_toUInt8 (by omega)
  have hb := scalar_bounds c
  obtain ⟨lo, hi, hl, hr⟩ : ∃ lo hi, lead (0xE0 + c.toNat / 0x1000) = .multi 3 lo hi ∧
      ¬ (0x80 + c.toNat / 0x40 % 0x40 < lo ∨ hi < 0x80 + c.toNat / 0x40 % 0x40) := by
    unfold lead
    rw [if_neg (by omega), if_neg (by omega), if_neg (by omega)]
    split
    next => exact ⟨_, _, rfl, by omega⟩
    next =>
      split
      next => exact ⟨_, _, rfl, by omega⟩
      next => rw [if_pos (by omega)]; exact ⟨_, _, rfl, by omega⟩
  have hc : isContinuation (0x80 + c.toNat % 0x40).toUInt8 = true := isContinuation_toUInt8 (by omega)
  have hv : (0xE0 + c.toNat / 0x1000 - 0xE0) * 0x1000 + (0x80 + c.toNat / 0x40 % 0x40 - 0x80) * 0x40 +
      (0x80 + c.toNat % 0x40 - 0x80) = c.toNat := by omega
  rw [decodeFrom]
  simp only [h₀, hl, h₁, if_neg hr, hc, h₂, hv, Bool.not_true, Char.ofNat_toNat]
  rfl

theorem decodeFrom_quadruple (h : ¬ c.toNat < 0x10000) :
    decodeFrom i ((0xF0 + c.toNat / 0x40000).toUInt8 :: (0x80 + c.toNat / 0x1000 % 0x40).toUInt8 ::
        (0x80 + c.toNat / 0x40 % 0x40).toUInt8 :: (0x80 + c.toNat % 0x40).toUInt8 :: bs) =
      (decodeFrom (i + 4) bs).map (c :: ·) := by
  have hb := scalar_bounds c
  have h₀ : (0xF0 + c.toNat / 0x40000).toUInt8.toNat = 0xF0 + c.toNat / 0x40000 := toNat_toUInt8 (by omega)
  have h₁ : (0x80 + c.toNat / 0x1000 % 0x40).toUInt8.toNat = 0x80 + c.toNat / 0x1000 % 0x40 :=
    toNat_toUInt8 (by omega)
  have h₂ : (0x80 + c.toNat / 0x40 % 0x40).toUInt8.toNat = 0x80 + c.toNat / 0x40 % 0x40 := toNat_toUInt8 (by omega)
  have h₃ : (0x80 + c.toNat % 0x40).toUInt8.toNat = 0x80 + c.toNat % 0x40 := toNat_toUInt8 (by omega)
  obtain ⟨lo, hi, hl, hr⟩ : ∃ lo hi, lead (0xF0 + c.toNat / 0x40000) = .multi 4 lo hi ∧
      ¬ (0x80 + c.toNat / 0x1000 % 0x40 < lo ∨ hi < 0x80 + c.toNat / 0x1000 % 0x40) := by
    unfold lead
    rw [if_neg (by omega), if_neg (by omega), if_neg (by omega), if_neg (by omega), if_neg (by omega),
      if_neg (by omega)]
    split
    next => exact ⟨_, _, rfl, by omega⟩
    next =>
      split
      next => exact ⟨_, _, rfl, by omega⟩
      next => rw [if_pos (by omega)]; exact ⟨_, _, rfl, by omega⟩
  have hc₂ : isContinuation (0x80 + c.toNat / 0x40 % 0x40).toUInt8 = true := isContinuation_toUInt8 (by omega)
  have hc₃ : isContinuation (0x80 + c.toNat % 0x40).toUInt8 = true := isContinuation_toUInt8 (by omega)
  have hv : (0xF0 + c.toNat / 0x40000 - 0xF0) * 0x40000 + (0x80 + c.toNat / 0x1000 % 0x40 - 0x80) * 0x1000 +
      (0x80 + c.toNat / 0x40 % 0x40 - 0x80) * 0x40 + (0x80 + c.toNat % 0x40 - 0x80) = c.toNat := by omega
  rw [decodeFrom]
  simp only [h₀, hl, h₁, if_neg hr, hc₂, h₂, hc₃, h₃, hv, Bool.not_true, Char.ofNat_toNat]
  rfl

end Sequences

theorem decodeFrom_encodeChar (i : Nat) (c : Char) (bs : List UInt8) :
    decodeFrom i (encodeChar c ++ bs) = (decodeFrom (i + (encodeChar c).length) bs).map (c :: ·) := by
  unfold encodeChar
  dsimp only
  split
  next h => exact decodeFrom_single i bs h
  next h =>
    split
    next h' => exact decodeFrom_double i bs h h'
    next h' =>
      split
      next h'' => exact decodeFrom_triple i bs h' h''
      next h'' => exact decodeFrom_quadruple i bs h''

theorem decodeFrom_encode (i : Nat) (cs : List Char) : decodeFrom i (encode cs) = .ok cs := by
  induction cs generalizing i with
  | nil => rfl
  | cons c cs ih =>
    rw [encode, List.flatMap_cons, decodeFrom_encodeChar, ← encode, ih]
    rfl

theorem decode_encode (cs : List Char) : decode (encode cs) = .ok cs :=
  decodeFrom_encode 0 cs

theorem toNat_ofNat {n : Nat} (h : n < 0xD800 ∨ 0xE000 ≤ n ∧ n < 0x110000) : (Char.ofNat n).toNat = n := by
  have valid : n.isValidChar := by unfold Nat.isValidChar; omega
  rw [Char.ofNat, dif_pos valid]
  rfl

theorem toUInt8_of_eq {b : UInt8} {n : Nat} (h : n = b.toNat) : n.toUInt8 = b := by
  rw [h]
  exact UInt8.ofNat_toNat

theorem isContinuation_bounds {b : UInt8} (h : ¬ (!isContinuation b) = true) : 0x80 ≤ b.toNat ∧ b.toNat ≤ 0xBF := by
  simpa [isContinuation] using h

theorem lead_single {b : Nat} (h : lead b = .single) : b < 0x80 := by
  unfold lead at h
  repeat' split at h
  all_goals first | assumption | cases h

/-- The range of the second byte keeps out overlong forms, surrogates and what lies beyond the last scalar. -/
theorem lead_multi {b width lo hi : Nat} (h : lead b = .multi width lo hi) :
    width = 2 ∧ 0xC2 ≤ b ∧ b < 0xE0 ∧ lo = 0x80 ∧ hi = 0xBF ∨
      width = 3 ∧ 0xE0 ≤ b ∧ b < 0xF0 ∧ (b = 0xE0 → 0xA0 ≤ lo) ∧ (b = 0xED → hi ≤ 0x9F) ∧ 0x80 ≤ lo ∧ hi ≤ 0xBF ∨
      width = 4 ∧ 0xF0 ≤ b ∧ b ≤ 0xF4 ∧ (b = 0xF0 → 0x90 ≤ lo) ∧ (b = 0xF4 → hi ≤ 0x8F) ∧ 0x80 ≤ lo ∧ hi ≤ 0xBF := by
  unfold lead at h
  repeat' split at h
  all_goals cases h
  all_goals omega

section Scalars

variable {b b₁ b₂ b₃ : UInt8} {lo hi : Nat}

theorem encodeChar_single (h : lead b.toNat = .single) : encodeChar (Char.ofNat b.toNat) = [b] := by
  have small := lead_single h
  unfold encodeChar
  simp only [toNat_ofNat (n := b.toNat) (by omega), if_pos small, toUInt8_of_eq rfl]

theorem encodeChar_double (h : lead b.toNat = .multi 2 lo hi) (hr : ¬ (b₁.toNat < lo ∨ hi < b₁.toNat)) :
    encodeChar (Char.ofNat ((b.toNat - 0xC0) * 0x40 + (b₁.toNat - 0x80))) = [b, b₁] := by
  have range := lead_multi h
  have scalar := toNat_ofNat (n := (b.toNat - 0xC0) * 0x40 + (b₁.toNat - 0x80)) (by omega)
  unfold encodeChar
  dsimp only
  rw [scalar, if_neg (by omega), if_pos (by omega), toUInt8_of_eq (b := b) (by omega),
    toUInt8_of_eq (b := b₁) (by omega)]

theorem encodeChar_triple (h : lead b.toNat = .multi 3 lo hi) (hr : ¬ (b₁.toNat < lo ∨ hi < b₁.toNat))
    (h₂ : ¬ (!isContinuation b₂) = true) :
    encodeChar (Char.ofNat ((b.toNat - 0xE0) * 0x1000 + (b₁.toNat - 0x80) * 0x40 + (b₂.toNat - 0x80))) =
      [b, b₁, b₂] := by
  have range := lead_multi h
  have second := isContinuation_bounds h₂
  have scalar := toNat_ofNat
    (n := (b.toNat - 0xE0) * 0x1000 + (b₁.toNat - 0x80) * 0x40 + (b₂.toNat - 0x80)) (by omega)
  unfold encodeChar
  dsimp only
  rw [scalar, if_neg (by omega), if_neg (by omega), if_pos (by omega), toUInt8_of_eq (b := b) (by omega),
    toUInt8_of_eq (b := b₁) (by omega), toUInt8_of_eq (b := b₂) (by omega)]

theorem encodeChar_quadruple (h : lead b.toNat = .multi 4 lo hi) (hr : ¬ (b₁.toNat < lo ∨ hi < b₁.toNat))
    (h₂ : ¬ (!isContinuation b₂) = true) (h₃ : ¬ (!isContinuation b₃) = true) :
    encodeChar (Char.ofNat ((b.toNat - 0xF0) * 0x40000 + (b₁.toNat - 0x80) * 0x1000 + (b₂.toNat - 0x80) * 0x40 +
      (b₃.toNat - 0x80))) = [b, b₁, b₂, b₃] := by
  have range := lead_multi h
  have second := isContinuation_bounds h₂
  have third := isContinuation_bounds h₃
  have scalar := toNat_ofNat (n := (b.toNat - 0xF0) * 0x40000 + (b₁.toNat - 0x80) * 0x1000 +
    (b₂.toNat - 0x80) * 0x40 + (b₃.toNat - 0x80)) (by omega)
  unfold encodeChar
  dsimp only
  rw [scalar, if_neg (by omega), if_neg (by omega), if_neg (by omega), toUInt8_of_eq (b := b) (by omega),
    toUInt8_of_eq (b := b₁) (by omega), toUInt8_of_eq (b := b₂) (by omega), toUInt8_of_eq (b := b₃) (by omega)]

end Scalars

/-- One scalar is read off the front, and its bytes are those in front. -/
theorem encode_cons {e : Except Fault (List Char)} {c : Char} {cs : List Char} {front bs : List UInt8}
    (hf : encodeChar c = front) (ih : ∀ {ds}, e = .ok ds → encode ds = bs) (h : e.map (c :: ·) = .ok cs) :
    encode cs = front ++ bs := by
  cases e with
  | error f => cases h
  | ok ds =>
    cases h
    rw [encode, List.flatMap_cons, hf, ← encode, ih rfl]

/-- Bytes that are read are the bytes that are written. -/
theorem encode_of_decodeFrom {i : Nat} {bs : List UInt8} {cs : List Char} (h : decodeFrom i bs = .ok cs) :
    encode cs = bs := by
  fun_induction decodeFrom i bs generalizing cs with
  | case1 i => cases h; rfl
  | case3 i b bs hl ih => exact encode_cons (encodeChar_single hl) ih h
  | case6 i b lo hi b₁ bs hr hl ih => exact encode_cons (encodeChar_double hl hr) ih h
  | case9 i b lo hi b₁ hr b₂ bs h₂ hl _ ih => exact encode_cons (encodeChar_triple hl hr h₂) ih h
  | case12 i b width lo hi hl b₁ hr hw b₂ h₂ hw' b₃ bs h₃ ih =>
    have four : width = 4 := by have := lead_multi hl; omega
    subst four
    exact encode_cons (encodeChar_quadruple hl hr h₂ h₃) ih h
  | _ => cases h

theorem encode_of_decode {bs : List UInt8} {cs : List Char} (h : decode bs = .ok cs) : encode cs = bs :=
  encode_of_decodeFrom h

theorem cons_lt_cons {m n : Nat} {xs ys : List UInt8} (hm : m < 256) (hn : n < 256) :
    m.toUInt8 :: xs < n.toUInt8 :: ys ↔ m < n ∨ m = n ∧ xs < ys := by
  rw [List.cons_lt_cons_iff, UInt8.lt_iff_toNat_lt, ← UInt8.toNat_inj, toNat_toUInt8 hm, toNat_toUInt8 hn]

/-- The lesser scalar has the lesser bytes, whatever follows: the lead bytes grow with the width, and within a width the
bytes are the digits of the scalar. -/
theorem encodeChar_append_lt {c d : Char} (h : c < d) (xs ys : List UInt8) :
    encodeChar c ++ xs < encodeChar d ++ ys := by
  have below : c.toNat < d.toNat := UInt32.lt_iff_toNat_lt.mp (Char.lt_def.mp h)
  have hc := scalar_bounds c
  have hd := scalar_bounds d
  unfold encodeChar
  dsimp only
  -- Every pair of widths; where the first is the greater, the order is contradicted.
  repeat' split
  all_goals
    simp (disch := omega) only [List.cons_append, List.nil_append, cons_lt_cons]
    omega

theorem append_lt_append_left {xs ys : List UInt8} (front : List UInt8) (h : xs < ys) : front ++ xs < front ++ ys := by
  induction front with
  | nil => exact h
  | cons b front ih => exact List.cons_lt_cons_iff.mpr (.inr ⟨rfl, ih⟩)

theorem encode_lt_of_lt {cs ds : List Char} (h : cs < ds) : encode cs < encode ds := by
  induction h with
  | nil =>
    rename_i d ds
    obtain ⟨b, bs, hb⟩ : ∃ b bs, encodeChar d = b :: bs := by
      unfold encodeChar
      dsimp only
      repeat' split
      all_goals exact ⟨_, _, rfl⟩
    rw [encode, encode, List.flatMap_nil, List.flatMap_cons, hb]
    exact List.nil_lt_cons _ _
  | cons _ ih =>
    rw [encode, encode, List.flatMap_cons, List.flatMap_cons]
    exact append_lt_append_left _ ih
  | rel h =>
    rw [encode, encode, List.flatMap_cons, List.flatMap_cons]
    exact encodeChar_append_lt h _ _

/-- Texts are ordered as their bytes are. -/
theorem encode_lt_iff {s t : String} : encode s.toList < encode t.toList ↔ s < t := by
  constructor
  · intro h
    rcases Std.lt_trichotomy s t with lt | same | gt
    · exact lt
    · rw [same] at h
      exact absurd h (List.lt_irrefl _)
    · exact absurd (encode_lt_of_lt gt) (List.lt_asymm h)
  · exact encode_lt_of_lt

end Workshare.Utf8
