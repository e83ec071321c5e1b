import Workshare.Proofs.Json.RoundTrip
import Workshare.Table

namespace Workshare.Json

theorem takeSignificand_lt {n : Nat} (h : n < UInt64.size) (cs : List Char) :
    (takeSignificand n cs).1 < UInt64.size := by
  induction cs generalizing n with
  | nil => exact h
  | cons c cs ih =>
    rw [takeSignificand]
    dsimp only
    split
    next small => exact ih small
    next => exact h

/-- A leaf that a strict reader takes for a whole number only if it has 64 bits. -/
def Leaf.Sound (n : Leaf Number) : Prop :=
  ∀ {k : Int}, n.strict = .ok (.int k) → -2 ^ 63 ≤ k ∧ k < 2 ^ 64

theorem sound_value (t : NumberText) : Leaf.Sound ⟨t.value, none⟩ := by
  intro k h
  have bound := takeSignificand_lt (n := 0) (by decide) t.whole
  have value : t.value = .ok (.int k) := h
  unfold NumberText.value at value
  dsimp only at value
  split at value
  next =>
    split at value
    next => split at value <;> cases value
    next =>
      split at value
      next =>
        cases value
        simp only [UInt64.size] at bound
        omega
      next =>
        split at value
        next => split at value <;> cases value
        next range =>
          cases value
          simp only [UInt64.size] at bound range
          omega
  next => split at value <;> cases value

theorem sound_readNumber (negative : Bool) (cs : List Char) : (readNumber negative cs).1.Sound :=
  readNumber_leaf (P := fun leaf => leaf.Sound) (fun f s k h => by cases h) sound_value negative cs

mutual

/-- Every number in a tree was read from its digits. -/
def Raw.Sound : Raw → Prop
  | .num n => n.Sound
  | .arr items => items.Sound
  | .obj members => members.Sound
  | _ => True

def Items.Sound : Items → Prop
  | .cons v rest => v.Sound ∧ rest.Sound
  | _ => True

def Members.Sound : Members → Prop
  | .cons _ v rest => v.Sound ∧ rest.Sound
  | _ => True

end

theorem sound_readWord {v : Raw} (h : v.Sound) (ls cs : List Char) : (readWord v ls cs).1.Sound := by
  induction ls generalizing cs with
  | nil => exact h
  | cons l ls ih =>
    cases cs with
    | nil => trivial
    | cons c cs =>
      rw [readWord]
      split
      next => exact ih cs
      next => trivial

/-- The three readers of a tree, with this fuel. -/
def ReadsSound (fuel : Nat) : Prop :=
  (∀ cs, (readValue fuel cs).1.Sound) ∧ (∀ cs, (readItems fuel cs).1.Sound) ∧ ∀ cs, (readMembers fuel cs).1.Sound

theorem sound_readValue {fuel : Nat} (ih : ReadsSound fuel) (cs : List Char) : (readValue (fuel + 1) cs).1.Sound := by
  obtain ⟨_, items, members⟩ := ih
  rw [readValue]
  split
  next => trivial
  next c rest _ =>
    split
    next => exact sound_readWord (v := .null) trivial _ _
    split
    next => exact sound_readWord (v := .bool true) trivial _ _
    split
    next => exact sound_readWord (v := .bool false) trivial _ _
    split
    next => exact sound_readNumber _ _
    split
    next => exact sound_readNumber _ _
    split
    next => trivial
    split
    next =>
      split
      next => trivial
      next => trivial
      next => exact items _
    split
    next =>
      split
      next => trivial
      next => exact members _
    next => trivial

theorem sound_readItems {fuel : Nat} (ih : ReadsSound fuel) (cs : List Char) : (readItems (fuel + 1) cs).1.Sound := by
  obtain ⟨value, items, _⟩ := ih
  rw [readItems]
  dsimp only
  split
  next => exact ⟨value cs, trivial⟩
  next => exact ⟨value cs, trivial⟩
  next => exact ⟨value cs, items _⟩
  next => exact ⟨value cs, trivial⟩

theorem sound_readMembers {fuel : Nat} (ih : ReadsSound fuel) (cs : List Char) :
    (readMembers (fuel + 1) cs).1.Sound := by
  obtain ⟨value, _, members⟩ := ih
  rw [readMembers]
  split
  next =>
    dsimp only
    split
    next =>
      split
      next => exact ⟨value _, trivial⟩
      next => exact ⟨value _, trivial⟩
      next => exact ⟨value _, members _⟩
      next => exact ⟨value _, trivial⟩
    next => exact ⟨trivial, trivial⟩
  next => trivial

theorem readsSound (fuel : Nat) : ReadsSound fuel := by
  induction fuel with
  | zero => exact ⟨fun _ => trivial, fun _ => trivial, fun _ => trivial⟩
  | succ fuel ih => exact ⟨sound_readValue ih, sound_readItems ih, sound_readMembers ih⟩

theorem sound_read (cs : List Char) : (Raw.read cs).1.Sound :=
  (readsSound _).1 cs

theorem mem_insertMember {k : String} {v : Value} {got : List (String × Value)} {e : String × Value}
    (h : e ∈ Value.insertMember k v got) : e = (k, v) ∨ e ∈ got := by
  induction got with
  | nil => exact .inl (List.mem_singleton.mp h)
  | cons m got ih =>
    rw [Value.insertMember] at h
    split at h
    next => exact List.mem_cons.mp h
    next =>
      split at h
      next => exact (List.mem_cons.mp h).imp_right (List.mem_cons_of_mem _)
      next =>
        rcases List.mem_cons.mp h with rfl | h
        · exact .inr List.mem_cons_self
        · exact (ih h).imp_right (List.mem_cons_of_mem _)

theorem pairwise_insertMember (k : String) (v : Value) {got : List (String × Value)} (h : got.Pairwise (·.1 < ·.1)) :
    (Value.insertMember k v got).Pairwise (·.1 < ·.1) := by
  induction got with
  | nil => exact List.pairwise_singleton _ _
  | cons m got ih =>
    obtain ⟨first, rest⟩ := List.pairwise_cons.mp h
    rw [Value.insertMember]
    split
    next hlt =>
      refine List.pairwise_cons.mpr ⟨fun e he => ?_, h⟩
      rcases List.mem_cons.mp he with rfl | he
      · exact hlt
      · exact String.lt_trans hlt (first e he)
    next hlt =>
      split
      next heq => exact List.pairwise_cons.mpr ⟨fun e he => by rw [heq]; exact first e he, rest⟩
      next hne =>
        refine List.pairwise_cons.mpr ⟨fun e he => ?_, ih rest⟩
        rcases mem_insertMember he with rfl | he
        · exact ((Key.total m.1 k).resolve_right fun h => h.elim (fun h => hne h.symm) hlt)
        · exact first e he

theorem normalMembers_insertMember {depth : Nat} {k : String} {v : Value} (hv : v.Normal depth)
    {got : List (String × Value)} (h : Value.NormalMembers depth got) :
    Value.NormalMembers depth (Value.insertMember k v got) := by
  induction got with
  | nil => exact ⟨hv, trivial⟩
  | cons m got ih =>
    rw [Value.insertMember]
    split
    next => exact ⟨hv, h⟩
    next =>
      split
      next => exact ⟨hv, h.2⟩
      next => exact ⟨h.1, ih h.2⟩

theorem normal_num {n : Leaf Number} (sound : n.Sound) {depth : Nat} {v : Value} (h : (Raw.num n).value depth = .ok v) :
    v.Normal depth := by
  obtain ⟨m, read, rfl⟩ := value_num h
  cases m with
  | int k => exact sound read
  | real x => trivial

/-- What a tree stands for is in normal form. -/
theorem normal_value {raw : Raw} : raw.Sound → ∀ {depth v}, raw.value depth = .ok v → v.Normal depth := by
  -- three types at once; of members the sorted list that has been got so far carries the induction
  refine @Raw.rec (fun raw => raw.Sound → ∀ {depth v}, raw.value depth = .ok v → v.Normal depth)
    (fun items => items.Sound → ∀ {depth vs}, items.values depth = .ok vs → Value.NormalItems depth vs)
    (fun members => members.Sound → ∀ {depth got out}, got.Pairwise (·.1 < ·.1) → Value.NormalMembers depth got →
      members.values depth got = .ok out → out.Pairwise (·.1 < ·.1) ∧ Value.NormalMembers depth out)
    ?null ?bool ?word ?num ?str ?arr ?obj ?absent ?noItems ?brokenItems ?item ?noMembers ?brokenMembers ?stray ?member raw
  case null =>
    intro _ depth v h
    rw [Raw.value] at h
    cases h
    trivial
  case bool =>
    intro b _ depth v h
    rw [Raw.value] at h
    cases h
    trivial
  case word =>
    intro f _ depth v h
    rw [Raw.value] at h
    cases h
  case num => exact fun n sound _ _ h => normal_num sound h
  case str =>
    intro s _ depth v h
    obtain ⟨t, _, rfl⟩ := value_str h
    trivial
  case arr =>
    intro items ih sound depth v h
    obtain ⟨deep, vs, read, rfl⟩ := value_arr h
    exact ⟨deep, ih sound read⟩
  case obj =>
    intro members ih sound depth v h
    obtain ⟨deep, ms, read, rfl⟩ := value_obj h
    exact ⟨deep, ih sound .nil trivial read⟩
  case absent =>
    intro f _ depth v h
    rw [Raw.value] at h
    cases h
  case noItems =>
    intro _ depth vs h
    rw [Items.values] at h
    cases h
    trivial
  case brokenItems =>
    intro f _ depth vs h
    rw [Items.values] at h
    cases h
  case item =>
    intro v rest ih ihs sound depth vs h
    obtain ⟨w, ws, first, others, rfl⟩ := values_cons h
    exact ⟨ih sound.1 first, ihs sound.2 others⟩
  case noMembers =>
    intro _ depth got out sorted normal h
    rw [Members.values] at h
    cases h
    exact ⟨sorted, normal⟩
  case brokenMembers =>
    intro f _ depth got out _ _ h
    rw [Members.values] at h
    cases h
  case stray =>
    intro v _ _ depth got out _ _ h
    cases v <;> cases h
  case member =>
    intro key v rest ih ihs sound depth got out sorted normal h
    obtain ⟨k, w, value, h⟩ := values_member h
    exact ihs sound.2 (pairwise_insertMember k w sorted) (normalMembers_insertMember (ih sound.1 value) normal) h

theorem normal_of_read {text : String} {v : Value} (h : Value.read text = .ok v) : v.Normal 0 := by
  have value := (readText_parts h).1
  rw [read_anything] at value
  exact normal_value (sound_read _) value

theorem Items.tail_induction {Q : Items → Prop} (closed : Q .closed) (broken : ∀ f, Q (.broken f))
    (cons : ∀ v rest, Q rest → Q (.cons v rest)) (items : Items) : Q items :=
  @Items.rec (fun _ => True) Q (fun _ => True) trivial (fun _ => trivial) (fun _ => trivial) (fun _ => trivial)
    (fun _ => trivial) (fun _ _ => trivial) (fun _ _ => trivial) (fun _ => trivial) closed broken
    (fun v rest _ ih => cons v rest ih) trivial (fun _ => trivial) (fun _ _ => trivial) (fun _ _ _ _ _ => trivial) items

theorem Members.tail_induction {R : Members → Prop} (closed : R .closed) (broken : ∀ f, R (.broken f))
    (stray : ∀ v, R (.stray v)) (cons : ∀ key v rest, R rest → R (.cons key v rest)) (members : Members) : R members :=
  @Members.rec (fun _ => True) (fun _ => True) R trivial (fun _ => trivial) (fun _ => trivial) (fun _ => trivial)
    (fun _ => trivial) (fun _ _ => trivial) (fun _ _ => trivial) (fun _ => trivial) trivial (fun _ => trivial)
    (fun _ _ _ _ => trivial) closed broken (fun v _ => stray v) (fun key v rest _ ih => cons key v rest ih) members

/-- What a record may hold under a name: its default, and what its shape reads there inside `depth` brackets. -/
def Field.Holds (depth : Nat) (p : String → Value → Prop) (field : Field) : Prop :=
  (∀ d, field.2.2 = some d → p field.1 d) ∧ ∀ {raw v}, raw.Sound → field.2.1.read depth raw = .ok v → p field.1 v

section Records

variable {p : String → Value → Prop} {fields : List Field} {depth : Nat}

theorem holds_assemble (hf : ∀ f ∈ fields, Field.Holds depth p f) {got out : List (String × Value)}
    (hg : ∀ e ∈ got, p e.1 e.2) (h : assemble got fields = .ok out) : ∀ e ∈ out, p e.1 e.2 := by
  induction fields generalizing out with
  | nil => cases h; simp
  | cons f fields ih =>
    obtain ⟨name, shape, default⟩ := f
    obtain ⟨this, others⟩ := List.forall_mem_cons.mp hf
    rw [assemble] at h
    split at h
    next v hv =>
      have value : p name v := by
        cases found : got.find? (·.1 = name) with
        | none => rw [found] at hv; exact this.1 v hv
        | some e =>
          rw [found] at hv
          cases hv
          have named : e.1 = name := by simpa using List.find?_some found
          exact named ▸ hg e (List.mem_of_find?_eq_some found)
      obtain ⟨rest, read, rfl⟩ := Except.exists_of_map h
      exact List.forall_mem_cons.mpr ⟨value, ih others read⟩
    next => cases h

theorem holds_readFieldList (items : Items) : ∀ {fields : List Field}, (∀ f ∈ fields, Field.Holds depth p f) →
    items.Sound → ∀ {out}, readFieldList fields depth items = .ok out → ∀ e ∈ out, p e.1 e.2 := by
  induction items using Items.tail_induction with
  | closed => exact fun hf _ _ h => holds_assemble hf (by simp) h
  | broken f => intro fields _ _ out h; cases h
  | cons v rest ih =>
    intro fields hf sound out h
    cases fields with
    | nil => cases h
    | cons f fields =>
      obtain ⟨name, shape, default⟩ := f
      obtain ⟨this, others⟩ := List.forall_mem_cons.mp hf
      rw [readFieldList] at h
      obtain ⟨w, first, h⟩ := Except.exists_of_bind h
      obtain ⟨ws, rest, h⟩ := Except.exists_of_bind h
      cases h
      exact List.forall_mem_cons.mpr ⟨this.2 sound.1 first, ih others sound.2 rest⟩

theorem holds_readFields (hf : ∀ f ∈ fields, Field.Holds depth p f) (members : Members) :
    members.Sound → ∀ {got}, (∀ e ∈ got, p e.1 e.2) → ∀ {out}, readFields fields depth got members = .ok out →
      ∀ e ∈ out, p e.1 e.2 := by
  induction members using Members.tail_induction with
  | closed => exact fun _ _ hg _ h => holds_assemble hf hg h
  | broken f => intro _ got _ out h; cases h
  | stray v => intro _ got _ out h; cases v <;> cases h
  | cons key v rest ih =>
    intro sound got hg out h
    rw [readFields] at h
    obtain ⟨k, _, h⟩ := Except.exists_of_bind h
    split at h
    next =>
      obtain ⟨_, _, h⟩ := Except.exists_of_bind h
      exact ih sound.2 hg h
    next name shape default found =>
      have named : name = k := by simpa using List.find?_some found
      split at h
      next => cases h
      next =>
        obtain ⟨w, read, h⟩ := Except.exists_of_bind h
        have value : p k w := named ▸ (hf _ (List.mem_of_find?_eq_some found)).2 sound.1 read
        exact ih sound.2 (List.forall_mem_cons.mpr ⟨value, hg⟩) h

theorem holds_record (hf : ∀ f ∈ fields, Field.Holds (depth + 1) p f) {raw : Raw} (sound : raw.Sound) {v : Value}
    (h : (Shape.record fields).read depth raw = .ok v) : ∃ ms, v = .obj ms ∧ ∀ e ∈ ms, p e.1 e.2 := by
  cases raw with
  | arr items =>
    have read : (if depth < maxDepth then (readFieldList fields (depth + 1) items).map Value.obj
      else .error .malformed) = .ok v := h
    split at read
    next =>
      obtain ⟨ms, inside, rfl⟩ := Except.exists_of_map read
      exact ⟨ms, rfl, holds_readFieldList items hf sound inside⟩
    next => cases read
  | obj members =>
    have read : (if depth < maxDepth then (readFields fields (depth + 1) [] members).map Value.obj
      else .error .malformed) = .ok v := h
    split at read
    next =>
      obtain ⟨ms, inside, rfl⟩ := Except.exists_of_map read
      exact ⟨ms, rfl, holds_readFields hf members sound (by simp) inside⟩
    next => cases read
  | _ => cases h

end Records

end Workshare.Json
