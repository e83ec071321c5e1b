import Workshare.Proofs.Json.Numbers
import Workshare.Proofs.Json.Values

namespace Workshare.Double

/-- The characters that the text of a double is made of. -/
def isPart (c : Char) : Bool :=
  Decimal.isDigit c || c = '-' || c = '+' || c = '.' || c = 'e'

theorem isPart_pair {a b : Char} (ha : isPart a) (hb : isPart b) : ∀ c ∈ [a, b], isPart c :=
  List.forall_mem_cons.mpr ⟨ha, List.forall_mem_singleton.mpr hb⟩

theorem isPart_digits {n : Nat} : ∀ c ∈ Decimal.digits n, isPart c := by
  intro c hc
  unfold isPart
  rw [Decimal.isDigit_of_mem_digits hc]
  rfl

theorem isPart_shortest (x : Double) : ∀ c ∈ x.shortest.digits, isPart c := by
  intro c hc
  unfold shortest at hc
  dsimp only at hc
  have kept := (List.dropWhile_sublist _).mem (List.mem_reverse.mp hc)
  exact isPart_digits c (List.mem_reverse.mp kept)

theorem isPart_place {s : Shortest} (h : ∀ c ∈ s.digits, isPart c) : ∀ c ∈ layout.place s, isPart c := by
  have zeros : ∀ n, ∀ c ∈ List.replicate n '0', isPart c := by
    intro n c hc
    rw [(List.mem_replicate.mp hc).2]
    rfl
  have first : ∀ n, ∀ c ∈ s.digits.take n, isPart c := fun n c hc => h c (List.mem_of_mem_take hc)
  have last : ∀ n, ∀ c ∈ s.digits.drop n, isPart c := fun n c hc => h c (List.mem_of_mem_drop hc)
  have point : isPart '.' := rfl
  have zero : isPart '0' := rfl
  have marks : (∀ c ∈ layout.positiveExponent, isPart c) ∧ ∀ c ∈ layout.negativeExponent, isPart c :=
    ⟨isPart_pair rfl rfl, isPart_pair rfl rfl⟩
  unfold Layout.place
  dsimp only
  split
  next =>
    split
    next => simp only [List.forall_mem_append, List.forall_mem_cons]; exact ⟨⟨h, zeros _⟩, point, zero, by simp⟩
    next =>
      split
      next => simp only [List.forall_mem_append, List.forall_mem_cons]; exact ⟨first _, point, last _⟩
      next => simp only [List.cons_append, List.forall_mem_append, List.forall_mem_cons]; exact ⟨zero, point, zeros _, h⟩
  next =>
    simp only [List.forall_mem_append]
    refine ⟨⟨?_, ?_⟩, isPart_digits⟩
    · split
      next => simp
      next he => rw [he] at h; exact h
      next he =>
        rw [he, List.forall_mem_cons] at h
        exact List.forall_mem_cons.mpr ⟨h.1, List.forall_mem_cons.mpr ⟨point, h.2⟩⟩
    · split
      next => exact marks.1
      next => exact marks.2

theorem isPart_text (x : Double) : ∀ c ∈ x.text, isPart c := by
  have sign : ∀ c ∈ (if x.negative then ['-'] else []), isPart c := by
    split
    next => exact List.forall_mem_singleton.mpr rfl
    next => simp
  unfold text
  dsimp only
  split
  next => exact List.forall_mem_append.mpr ⟨sign, List.forall_mem_cons.mpr ⟨rfl, isPart_pair rfl rfl⟩⟩
  next => exact List.forall_mem_append.mpr ⟨sign, isPart_place (isPart_shortest x)⟩

theorem not_isBlank_of_isPart {c : Char} (h : isPart c) : Json.isBlank c = false := by
  have differs : ∀ {d}, isPart d = false → decide (c = d) = false := by
    intro d hd
    refine decide_eq_false fun he => ?_
    rw [he, hd] at h
    cases h
  unfold Json.isBlank
  rw [differs rfl, differs rfl, differs rfl, differs rfl]
  rfl

/-- A double whose text is read as that double. Reading rounds more than once, so not every double is one. -/
def Returns (x : Double) : Prop :=
  Json.Value.read (Json.Value.real x).text = .ok (.real x)

end Workshare.Double

namespace Workshare.Json

theorem raw_of_read_real {x : Double} {raw : Raw} {depth : Nat}
    (h : Shape.anything.read depth raw = .ok (.real x)) : ∃ n, raw = .num n ∧ n.strict = .ok (.real x) := by
  cases raw with
  | num n =>
    refine ⟨n, rfl, ?_⟩
    have value : (Raw.num n).value depth = .ok (.real x) := h
    obtain ⟨m, read, value⟩ := value_num value
    cases m with
    | int k => cases value
    | real y => cases value; exact read
  | str s =>
    have value : (Raw.str s).value depth = .ok (.real x) := h
    obtain ⟨_, _, value⟩ := value_str value
    cases value
  | arr items =>
    obtain ⟨_, _, _, value⟩ := value_arr h
    cases value
  | obj members =>
    obtain ⟨_, _, _, value⟩ := value_obj h
    cases value
  | _ => cases h

/-- A text that is read as a value stands for it, and only blanks follow. -/
theorem readText_parts {shape : Shape} {text : String} {v : Value} (h : shape.readText text = .ok v) :
    shape.read 0 (Raw.read text.toList).1 = .ok v ∧ skipBlanks (Raw.read text.toList).2 = [] := by
  unfold Shape.readText at h
  dsimp only at h
  obtain ⟨w, read, rest⟩ := Except.exists_of_bind h
  split at rest
  next empty => cases rest; exact ⟨read, List.isEmpty_iff.mp empty⟩
  next => cases rest

theorem eq_nil_of_skipBlanks {cs : List Char} (h : skipBlanks cs = []) (hb : ∀ c ∈ cs, isBlank c = false) :
    cs = [] := by
  cases cs with
  | nil => rfl
  | cons c cs =>
    rw [skipBlanks_cons (hb c List.mem_cons_self)] at h
    cases h

theorem readNumber_of_returns {x : Double} (h : x.Returns) :
    ∃ leaf : Leaf Number, leaf.strict = .ok (.real x) ∧
      ((∃ cs, x.text = '-' :: cs ∧ readNumber true cs = (leaf, [])) ∨
        ∃ c cs, x.text = c :: cs ∧ Decimal.isDigit c ∧ readNumber false (c :: cs) = (leaf, [])) := by
  have print : (Value.real x).text.toList = x.text := String.toList_ofList
  have parts := x.isPart_text
  obtain ⟨value, rest⟩ := readText_parts h
  rw [print] at value rest
  obtain ⟨leaf, tree, strict⟩ := raw_of_read_real value
  refine ⟨leaf, strict, ?_⟩
  unfold Raw.read at tree rest
  cases text : x.text with
  | nil => rw [text] at tree; cases tree
  | cons c cs =>
    rw [text] at tree rest parts
    have solid : ∀ d ∈ c :: cs, isBlank d = false := fun d hd => Double.not_isBlank_of_isPart (parts d hd)
    have all : ∀ {negative cs'}, (∀ d ∈ cs', d ∈ c :: cs) → skipBlanks (readNumber negative cs').2 = [] →
        (readNumber negative cs').2 = [] := fun hs he =>
      eq_nil_of_skipBlanks he fun d hd => solid d (hs d (mem_of_mem_readNumber hd))
    have part := parts c List.mem_cons_self
    by_cases minus : c = '-'
    · subst minus
      have read : ∀ fuel, readValue (fuel + 1) ('-' :: cs) = (.num (readNumber true cs).1, (readNumber true cs).2) :=
        fun _ => rfl
      rw [read] at tree rest
      have empty := all (fun d hd => List.mem_cons_of_mem _ hd) rest
      refine .inl ⟨cs, rfl, Prod.ext ?_ empty⟩
      exact Raw.num.inj tree
    by_cases digit : Decimal.isDigit c
    · rw [readValue_digits digit] at tree rest
      have empty := all (fun d hd => hd) rest
      exact .inr ⟨c, cs, rfl, digit, Prod.ext (Raw.num.inj tree) empty⟩
    · have mark : c = '+' ∨ c = '.' ∨ c = 'e' := by
        simpa [Double.isPart, minus, digit, or_assoc] using part
      rcases mark with rfl | rfl | rfl <;> cases tree

end Workshare.Json
