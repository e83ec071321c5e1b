import Mathlib.Data.Nat.Digits.Defs
import Workshare.Duration
import Workshare.Text.Utf8

namespace Workshare

namespace Utf8

def size (s : String) : Nat :=
  (encode s.toList).length

theorem length_encode_append (cs ds : List Char) : (encode (cs ++ ds)).length = (encode cs).length + (encode ds).length := by
  unfold encode
  rw [List.flatMap_append, List.length_append]

@[simp] theorem size_append (s t : String) : size (s ++ t) = size s + size t := by
  unfold size
  rw [String.toList_append, length_encode_append]

theorem length_encodeChar_le (c : Char) : (encodeChar c).length ≤ 4 := by
  unfold encodeChar
  dsimp only
  split
  next => exact Nat.le_add_left 1 3
  next =>
    split
    next => exact Nat.le_add_left 2 2
    next => split <;> simp

theorem length_encode_le (cs : List Char) : (encode cs).length ≤ 4 * cs.length := by
  induction cs with
  | nil => exact Nat.zero_le _
  | cons c cs ih =>
    have first := length_encodeChar_le c
    rw [encode, List.flatMap_cons, List.length_append, List.length_cons, ← encode]
    omega

theorem size_le (s : String) : size s ≤ 4 * s.toList.length :=
  length_encode_le s.toList

theorem size_ofList_le (cs : List Char) : size (String.ofList cs) ≤ 4 * cs.length := by
  rw [size, String.toList_ofList]
  exact length_encode_le cs

theorem length_encode_replicate (k : Nat) (c : Char) :
    (encode (List.replicate k c)).length = k * (encodeChar c).length := by
  induction k with
  | zero => rw [Nat.zero_mul]; rfl
  | succ k ih =>
    rw [encode, List.replicate_succ, List.flatMap_cons, List.length_append, Nat.add_mul, Nat.one_mul, Nat.add_comm, ← ih]
    rfl

theorem size_toString_le {n k : Nat} (some : 0 < k) (h : n < 10 ^ k) : size (toString n) ≤ 4 * k := by
  have digits : (toString n).toList.length ≤ k := by
    rw [String.length_toList]
    exact Nat.repr_length n k some h
  have := size_le (toString n)
  omega

end Utf8

theorem Decimal.length_digits_le {n k : Nat} (h : n < 10 ^ (k + 1)) : (digits n).length ≤ k + 1 := by
  induction k generalizing n with
  | zero =>
    rw [digits, if_pos (by simpa using h)]
    exact Nat.le_refl 1
  | succ k ih =>
    rw [digits]
    split
    next => exact Nat.le_add_left 1 _
    next =>
      have tens : n / 10 < 10 ^ (k + 1) := by
        rw [Nat.pow_succ] at h
        omega
      rw [List.length_append, List.length_singleton]
      exact Nat.succ_le_succ (ih tens)

namespace Duration

theorem length_fraction_le {width n : Nat} (narrow : width ≤ 9) (small : n < 10 ^ 9) : (fraction width n).length ≤ 9 := by
  have digits := Decimal.length_digits_le (k := 8) small
  unfold fraction
  rw [List.length_reverse]
  refine Nat.le_trans (List.dropWhile_sublist _).length_le ?_
  rw [List.length_reverse, List.length_append, List.length_replicate]
  omega

theorem size_inUnit_le {scale width nanos : Nat} (unit : String) (narrow : width ≤ 9) (some : 0 < scale)
    (fine : scale ≤ 10 ^ 9) (whole : nanos / scale < 10 ^ 20) :
    Utf8.size (inUnit scale width nanos unit) ≤ 120 + Utf8.size unit := by
  have digits := Decimal.length_digits_le (k := 19) whole
  have part := length_fraction_le narrow (Nat.lt_of_lt_of_le (Nat.mod_lt nanos some) fine)
  have point {cs : List Char} (h : cs.length ≤ 9) : (if cs.isEmpty then [] else '.' :: cs).length ≤ 10 := by
    split
    next => exact Nat.zero_le 10
    next => exact Nat.succ_le_succ h
  have decimals := point part
  unfold inUnit
  dsimp only
  rw [Utf8.size_append]
  refine Nat.add_le_add_right (Nat.le_trans (Utf8.size_ofList_le _) ?_) _
  rw [List.length_append]
  omega

/-- The seconds of a span have 64 bits. -/
def Valid (d : Duration) : Prop :=
  d.nanos < 2 ^ 64 * 1000000000

theorem size_text_le {d : Duration} (h : d.Valid) : Utf8.size d.text ≤ 130 := by
  unfold Valid at h
  unfold text
  split
  next => exact Nat.le_trans (size_inUnit_le "s" (by decide) (by decide) (by decide) (by omega)) (by decide)
  next =>
    split
    next => exact Nat.le_trans (size_inUnit_le "ms" (by decide) (by decide) (by decide) (by omega)) (by decide)
    next =>
      split
      next => exact Nat.le_trans (size_inUnit_le "µs" (by decide) (by decide) (by decide) (by omega)) (by decide)
      next => exact Nat.le_trans (size_inUnit_le "ns" (by decide) (by decide) (by decide) (by omega)) (by decide)

end Duration

end Workshare
