import Mathlib.Data.List.DropRight
import Workshare.Text.Blank

namespace Workshare.Blank

variable {p : Char → Bool} {cs kept : List Char}

theorem trimEnd_eq_self_iff : trimEnd p cs = cs ↔ ∀ c ∈ cs.getLast?, ¬p c := by
  have dropped : trimEnd p cs = cs.rdropWhile p := rfl
  rw [dropped, List.rdropWhile_eq_self_iff]
  constructor
  · intro h c last
    obtain ⟨nonempty, rfl⟩ := List.mem_getLast?_eq_getLast last
    exact h nonempty
  · intro h nonempty
    exact h _ (List.getLast_mem_getLast? nonempty)

theorem last_trimEnd (p : Char → Bool) (cs : List Char) : ∀ c ∈ (trimEnd p cs).getLast?, ¬p c :=
  trimEnd_eq_self_iff.mp (List.rdropWhile_idempotent p cs)

theorem exists_trimEnd (p : Char → Bool) (cs : List Char) : ∃ tail, cs = trimEnd p cs ++ tail ∧ ∀ c ∈ tail, p c :=
  ⟨cs.rtakeWhile p, List.rdropWhile_append_rtakeWhile.symm, fun _ => List.mem_rtakeWhile_imp⟩

/-- An end that need not be trimmed protects all before it. -/
theorem trimEnd_append (h : ∀ c ∈ kept.getLast?, ¬p c) (rest : List Char) :
    trimEnd p (kept ++ rest) = kept ++ trimEnd p rest := by
  unfold trimEnd
  rw [List.reverse_append, List.dropWhile_append]
  split
  next gone =>
    have rest_gone : rest.reverse.dropWhile p = [] := List.isEmpty_iff.mp gone
    rw [rest_gone, List.reverse_nil, List.append_nil]
    exact trimEnd_eq_self_iff.mpr h
  next => rw [List.reverse_append, List.reverse_reverse]

theorem trimEnd_eq_nil_iff : trimEnd p cs = [] ↔ ∀ c ∈ cs, p c :=
  List.rdropWhile_eq_nil_iff

theorem trimEnd_eq_iff : trimEnd p cs = kept ↔
    (∀ c ∈ kept.getLast?, ¬p c) ∧ ∃ tail, cs = kept ++ tail ∧ ∀ c ∈ tail, p c := by
  constructor
  · rintro rfl
    exact ⟨last_trimEnd p cs, exists_trimEnd p cs⟩
  · rintro ⟨last, tail, rfl, all⟩
    rw [trimEnd_append last, trimEnd_eq_nil_iff.mpr all, List.append_nil]

theorem first_dropWhile (p : Char → Bool) (cs : List Char) : ∀ c ∈ (cs.dropWhile p).head?, ¬p c := by
  intro c first
  have kept := List.head?_dropWhile_not p cs
  rw [Option.mem_def.mp first] at kept
  simpa using kept

theorem dropWhile_eq_self (h : ∀ c ∈ cs.head?, ¬p c) : cs.dropWhile p = cs := by
  cases cs with
  | nil => rfl
  | cons c cs => exact List.dropWhile_cons_of_neg (h c rfl)

/-- A text without blanks at its ends. -/
structure Bare (cs : List Char) : Prop where
  first : ∀ c ∈ cs.head?, ¬isBlank c
  last : ∀ c ∈ cs.getLast?, ¬isBlank c

theorem bare_trim (cs : List Char) : Bare (trim cs) := by
  refine ⟨fun c first => ?_, last_trimEnd isBlank _⟩
  obtain ⟨tail, whole, -⟩ := exists_trimEnd isBlank (cs.dropWhile isBlank)
  have begins : (cs.dropWhile isBlank).head? = some c := by
    rw [whole, List.head?_append, ← trim, Option.mem_def.mp first]
    rfl
  exact first_dropWhile isBlank cs c begins

/-- The second text, which is bare, stands between blanks in the first. -/
def Padded (cs core : List Char) : Prop :=
  Bare core ∧ ∃ front back, cs = front ++ core ++ back ∧ (∀ c ∈ front, isBlank c) ∧ ∀ c ∈ back, isBlank c

theorem trim_eq_iff : trim cs = kept ↔ Padded cs kept := by
  constructor
  · rintro rfl
    obtain ⟨back, whole, blank⟩ := exists_trimEnd isBlank (cs.dropWhile isBlank)
    refine ⟨bare_trim cs, cs.takeWhile isBlank, back, ?_, fun _ => List.mem_takeWhile_imp, blank⟩
    rw [List.append_assoc, trim, ← whole, List.takeWhile_append_dropWhile]
  · rintro ⟨bare, front, back, rfl, before, after⟩
    rw [trim, List.append_assoc, List.dropWhile_append_of_pos before]
    cases kept with
    | nil =>
      rw [List.nil_append, List.dropWhile_eq_nil_iff.mpr after]
      rfl
    | cons c cs =>
      have start : (c :: cs ++ back).dropWhile isBlank = c :: cs ++ back := dropWhile_eq_self bare.first
      rw [start]
      exact trimEnd_eq_iff.mpr ⟨bare.last, back, rfl, after⟩

theorem trim_eq_self_iff : trim cs = cs ↔ Bare cs :=
  ⟨fun h => (trim_eq_iff.mp h).1, fun h => trim_eq_iff.mpr ⟨h, [], [], by simp, by simp, by simp⟩⟩

/-- A text that is what trimming leaves of it, and possibly less, has no blanks at its ends. -/
theorem bare_of_trimEnd_trim (h : trimEnd p (trim cs) = cs) : Bare cs := by
  have shorter : (trim cs).Sublist cs := (List.rdropWhile_prefix _ _).sublist.trans (List.dropWhile_sublist _)
  have longer : cs.Sublist (trim cs) := by
    have part : (trimEnd p (trim cs)).Sublist (trim cs) := (List.rdropWhile_prefix p _).sublist
    rwa [h] at part
  exact trim_eq_self_iff.mp (shorter.antisymm longer)

theorem trim_eq_nil_iff : trim cs = [] ↔ ∀ c ∈ cs, isBlank c := by
  rw [trim_eq_iff]
  constructor
  · rintro ⟨-, front, back, rfl, before, after⟩ c hc
    rw [List.append_nil] at hc
    exact (List.mem_append.mp hc).elim (before c) (after c)
  · intro blank
    exact ⟨⟨by simp, by simp⟩, cs, [], by simp, blank, by simp⟩

end Workshare.Blank
