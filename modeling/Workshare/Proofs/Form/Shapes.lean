import Workshare.Json.Form
import Workshare.Proofs.Json.Reading

namespace Workshare.Json

/-- What is printed as `v` is read as `w`, inside `depth` brackets. -/
def Shape.Takes (s : Shape) (depth : Nat) (v w : Value) : Prop :=
  v.Legible ∧ s.read depth v.tree = .ok w

namespace Form

variable {α β : Type} {f g : Form α} {a : α} {depth : Nat}

def Returns (f : Form α) (depth : Nat) (a : α) : Prop :=
  ∃ w, f.shape.Takes depth (f.toValue a) w ∧ f.ofValue? w = some a

/-- A value that returns from a document which is read as it was printed. -/
def Keeps (f : Form α) (depth : Nat) (a : α) : Prop :=
  f.shape.Takes depth (f.toValue a) (f.toValue a) ∧ f.ofValue? (f.toValue a) = some a

theorem Keeps.returns (h : f.Keeps depth a) : f.Returns depth a :=
  ⟨f.toValue a, h⟩

theorem Returns.read (h : f.Returns 0 a) : f.read (f.print a) = .ok a := by
  obtain ⟨w, ⟨legible, taken⟩, back⟩ := h
  unfold Form.read Form.print Shape.readText
  rw [read_print legible]
  simp only [taken, bind, Except.bind]
  show f.ofDocument w = .ok a
  unfold ofDocument
  rw [back]
  rfl

/-- Two forms of a type that differ in what stands for a missing field: what the one prints is read by the other, and
what was accepted, if it is `plain`, is printed for good. -/
structure Faithful (f g : Form α) (good plain : α → Prop) : Prop where
  back : ∀ a, good a → g.read (f.print a) = .ok a
  settled : ∀ text a, f.read text = .ok a → plain a → g.read (f.print a) = .ok a ∧ g.print a = f.print a

theorem Faithful.of {good plain : α → Prop} (same : g.toValue = f.toValue) (returns : ∀ a, good a → g.Returns 0 a)
    (accepts : ∀ text a, f.read text = .ok a → plain a → good a) : Faithful f g good plain := by
  have print : g.print = f.print := by
    unfold Form.print
    rw [same]
  have back : ∀ a, good a → g.read (f.print a) = .ok a := by
    intro a ha
    rw [← print]
    exact (returns a ha).read
  exact ⟨back, fun text a read plain => ⟨back a (accepts text a read plain), congrFun print a⟩⟩

/-- Nothing is asked of a value, nor of what was accepted. -/
abbrev Settled (f : Form α) : Prop :=
  f.Faithful f (fun _ => True) fun _ => True

theorem Settled.of_returns (h : ∀ a, f.Returns 0 a) : f.Settled :=
  .of rfl (fun a _ => h a) fun _ _ _ _ => trivial

theorem Settled.of_keeps (h : ∀ a, f.Keeps 0 a) : f.Settled :=
  .of_returns fun a => (h a).returns

theorem ofValue?_of_ofDocument {w : Value} (h : f.ofDocument w = .ok a) : f.ofValue? w = some a := by
  unfold ofDocument at h
  cases back : f.ofValue? w with
  | none => rw [back] at h; cases h
  | some b => rw [back] at h; cases h; rfl

/-- What a form accepts comes from a document of its shape. -/
theorem document_of_read {text : String} (h : f.read text = .ok a) :
    ∃ w, f.shape.read 0 (Raw.read text.toList).1 = .ok w ∧ f.ofValue? w = some a := by
  obtain ⟨w, read, back⟩ := Except.exists_of_bind h
  exact ⟨w, (readText_parts read).1, ofValue?_of_ofDocument back⟩

theorem keeps_text (s : String) (depth : Nat) : text.Keeps depth s :=
  ⟨⟨trivial, rfl⟩, rfl⟩

theorem keeps_flag (b : Bool) (depth : Nat) : flag.Keeps depth b :=
  ⟨⟨trivial, rfl⟩, rfl⟩

theorem keeps_count (n : UInt64) (depth : Nat) : count.Keeps depth n := by
  have small := n.toNat_lt
  have range : -2 ^ 63 ≤ (n.toNat : Int) ∧ (n.toNat : Int) < 2 ^ 64 := by omega
  have word : ((n.toNat : Int).toNat).toUInt64 = n := by simp
  refine ⟨⟨range, ?_⟩, congrArg some word⟩
  show (if 0 ≤ (n.toNat : Int) then .ok (.int n.toNat) else .error .data : Except Fault Value) = .ok (.int n.toNat)
  exact if_pos (Int.natCast_nonneg n.toNat)

theorem keeps_anything {v : Value} (h : v.Portable depth) : anything.Keeps depth v := by
  have normal := (Value.portable_iff.mp h).1
  refine ⟨⟨normal.legible (h.reals _), ?_⟩, rfl⟩
  show Shape.anything.read depth v.tree = .ok v
  rw [read_anything, value_tree normal]

theorem Keeps.imap {forth : α → β} {back : β → α} {b : β} (h : f.Keeps depth (back b)) (inverse : forth (back b) = b) :
    (f.imap forth back).Keeps depth b := by
  refine ⟨h.1, ?_⟩
  show (f.ofValue? (f.toValue (back b))).map forth = some b
  rw [h.2, Option.map_some, inverse]

theorem readList_tree {as : List α} (h : ∀ a ∈ as, f.Keeps depth a) :
    readList f.shape depth (Value.treeItems (as.map f.toValue)) = .ok (as.map f.toValue) ∧
      Value.LegibleItems (as.map f.toValue) ∧ (as.map f.toValue).mapM f.ofValue? = some as := by
  induction as with
  | nil => exact ⟨rfl, trivial, rfl⟩
  | cons a as ih =>
    obtain ⟨⟨⟨legible, taken⟩, back⟩, others⟩ := List.forall_mem_cons.mp h
    obtain ⟨reads, legibles, backs⟩ := ih others
    refine ⟨?_, ⟨legible, legibles⟩, ?_⟩
    · rw [List.map_cons, Value.treeItems, readList, taken, reads]
      rfl
    · rw [List.map_cons, List.mapM_cons, back, backs]
      rfl

theorem keeps_list {as : List α} (deep : depth < maxDepth) (h : ∀ a ∈ as, f.Keeps (depth + 1) a) :
    f.list.Keeps depth as := by
  obtain ⟨reads, legibles, backs⟩ := readList_tree h
  refine ⟨⟨legibles, ?_⟩, backs⟩
  show (if depth < maxDepth then (readList f.shape (depth + 1) (Value.treeItems (as.map f.toValue))).map Value.arr
    else .error .malformed) = .ok (.arr (as.map f.toValue))
  rw [if_pos deep, reads]
  rfl

end Form

/-- The members that are printed for some fields, and what stands for each field once they are read. -/
inductive Fills (depth : Nat) : List Field → List (String × Value) → List (String × Value) → Prop
  | nil : Fills depth [] [] []
  | given {name shape default v w fields ms out} (taken : Shape.Takes shape depth v w) (rest : Fills depth fields ms out) :
    Fills depth ((name, shape, default) :: fields) ((name, v) :: ms) ((name, w) :: out)
  | missing {name shape d fields ms out} (rest : Fills depth fields ms out) :
    Fills depth ((name, shape, some d) :: fields) ms ((name, d) :: out)

namespace Fills

variable {depth : Nat} {fields : List Field} {ms out got : List (String × Value)}

theorem legible (h : Fills depth fields ms out) : Value.LegibleMembers ms := by
  induction h with
  | nil => trivial
  | given taken _ ih => exact ⟨taken.1, ih⟩
  | missing _ ih => exact ih

theorem find?_eq_none {name : String} (hn : ∀ e ∈ got, e.1 ≠ name) : got.find? (·.1 = name) = none :=
  List.find?_eq_none.mpr fun e he => by simpa using hn e he

theorem assemble_append {k : String} (v : Value) (hk : k ∉ fields.map (·.1)) :
    assemble (got ++ [(k, v)]) fields = assemble got fields := by
  induction fields with
  | nil => rfl
  | cons f fields ih =>
    obtain ⟨name, shape, default⟩ := f
    obtain ⟨other, rest⟩ := not_or.mp (mt List.mem_cons.mpr hk)
    have last : [(k, v)].find? (·.1 = name) = none := List.find?_cons_of_neg (by simpa using other)
    rw [assemble, assemble, ih rest, List.find?_append, last, Option.or_none]

theorem field_of_name {f : Field} (distinct : (fields.map (·.1)).Nodup) (h : f ∈ fields) :
    fields.find? (·.1 = f.1) = some f := by
  induction fields with
  | nil => cases h
  | cons g fields ih =>
    obtain ⟨apart, distinct⟩ := List.nodup_cons.mp distinct
    rcases List.mem_cons.mp h with rfl | h
    · exact List.find?_cons_of_pos (by simp)
    · have other : g.1 ≠ f.1 := fun he => apart (List.mem_map.mpr ⟨f, h, he.symm⟩)
      rw [List.find?_cons_of_neg (by simpa using other), ih distinct h]

/-- Of `all` fields, those that are filled are got one after the other, and each stands for what it should. -/
theorem readFields_tree (h : Fills depth fields ms out) {all : List Field} (named : ∀ f ∈ fields, all.find? (·.1 = f.1) = some f)
    (distinct : (fields.map (·.1)).Nodup) (fresh : ∀ e ∈ got, e.1 ∉ fields.map (·.1)) :
    ∃ filled, readFields all depth got (Value.treeMembers ms) = assemble (filled ++ got) all ∧
      (∀ e ∈ filled, e.1 ∈ fields.map (·.1)) ∧ assemble filled fields = .ok out := by
  induction h generalizing got with
  | nil => exact ⟨[], rfl, nofun, rfl⟩
  | @given name shape default v w fields ms out taken _ ih =>
    obtain ⟨this, named⟩ := List.forall_mem_cons.mp named
    obtain ⟨apart, distinct⟩ := List.nodup_cons.mp distinct
    have new : got.any (·.1 = name) = false := by
      refine List.any_eq_false.mpr fun e he => ?_
      simpa using fun same => fresh e he (List.mem_cons.mpr (.inl same))
    obtain ⟨filled, read, among, assembled⟩ := @ih ((name, w) :: got) named distinct
      (List.forall_mem_cons.mpr ⟨apart, fun e he hm => fresh e he (List.mem_cons_of_mem _ hm)⟩)
    refine ⟨filled ++ [(name, w)], ?_, ?_, ?_⟩
    · rw [Value.treeMembers, readFields, List.append_assoc]
      simp only [bind, Except.bind, this, new, taken.2]
      exact read
    · refine List.forall_mem_append.mpr ⟨fun e he => List.mem_cons_of_mem _ (among e he), ?_⟩
      exact List.forall_mem_singleton.mpr List.mem_cons_self
    · have absent : filled.find? (·.1 = name) = none :=
        find?_eq_none fun e he same => apart (by rw [← same]; exact among e he)
      rw [assemble, assemble_append w apart, assembled, List.find?_append, absent,
        List.find?_cons_of_pos (by simp)]
      rfl
  | @missing name shape d fields ms out _ ih =>
    obtain ⟨_, named⟩ := List.forall_mem_cons.mp named
    obtain ⟨apart, distinct⟩ := List.nodup_cons.mp distinct
    obtain ⟨filled, read, among, assembled⟩ := ih named distinct fun e he hm => fresh e he (List.mem_cons_of_mem _ hm)
    refine ⟨filled, read, fun e he => List.mem_cons_of_mem _ (among e he), ?_⟩
    have absent : filled.find? (·.1 = name) = none :=
      find?_eq_none fun e he same => apart (by rw [← same]; exact among e he)
    rw [assemble, assembled, absent]
    rfl

end Fills

theorem takes_record {depth : Nat} {fields : List Field} {ms out : List (String × Value)} (deep : depth < maxDepth)
    (distinct : (fields.map (·.1)).Nodup) (h : Fills (depth + 1) fields ms out) :
    Shape.Takes (.record fields) depth (.obj ms) (.obj out) := by
  refine ⟨h.legible, ?_⟩
  have fresh : ∀ e ∈ ([] : List (String × Value)), e.1 ∉ fields.map (·.1) := nofun
  obtain ⟨filled, read, _, assembled⟩ := h.readFields_tree (fun _ => Fills.field_of_name distinct) distinct fresh
  show (if depth < maxDepth then (readFields fields (depth + 1) [] (Value.treeMembers ms)).map Value.obj
    else .error .malformed) = .ok (.obj out)
  rw [if_pos deep, read, List.append_nil, assembled]
  rfl

section Options

variable {α : Type} {f : Form α} {s : Scalar} {depth : Nat} {name : String}

theorem takes_optional {v w : Value} (h : Shape.Takes (.scalar s) depth v w) : Shape.Takes (.optional s) depth v w := by
  obtain ⟨legible, read⟩ := h
  refine ⟨legible, ?_⟩
  cases v with
  | null => cases read
  | _ => exact read

/-- What an optional field stands for once it is read. -/
def Form.optionalValue (f : Form α) (a : Option α) : Value :=
  a.elim .null f.toValue

theorem Fills.optional {fields : List Field} {ms out : List (String × Value)} (scalar : f.shape = .scalar s) {a : Option α}
    (h : ∀ b ∈ a, f.Keeps depth b) (rest : Fills depth fields ms out) :
    Fills depth (Form.optionalField s name :: fields) (f.optionalMember name a ++ ms) ((name, f.optionalValue a) :: out) := by
  cases a with
  | none => exact .missing rest
  | some b =>
    have kept := (h b rfl).1
    rw [scalar] at kept
    exact .given (takes_optional kept) rest

theorem Form.getOptional?_optionalValue {v : Value} {a : Option α} (found : v.member? name = some (f.optionalValue a))
    (h : ∀ b ∈ a, f.Keeps depth b ∧ f.toValue b ≠ .null) : f.getOptional? v name = some a := by
  unfold getOptional?
  rw [found]
  cases a with
  | none => rfl
  | some b =>
    obtain ⟨kept, solid⟩ := h b rfl
    rw [optionalValue, Option.elim_some]
    split
    next he => cases he
    next he => exact absurd (Option.some.inj he) solid
    next v he => rw [← Option.some.inj he, kept.2, Option.map_some]

end Options

section Choices

variable {cases : List (String × Option Shape)} {name k : String}

theorem takes_bare {depth : Nat} (named : cases.find? (·.1 = name) = some (k, none)) :
    Shape.Takes (.choice cases) depth (.str name) (.str name) := by
  refine ⟨trivial, ?_⟩
  rw [Value.tree, Shape.read]
  simp only [Except.bind, named]

theorem takes_case {depth : Nat} {body : Shape} {v w : Value} (deep : depth < maxDepth)
    (named : cases.find? (·.1 = name) = some (k, some body)) (taken : body.Takes (depth + 1) v w) :
    Shape.Takes (.choice cases) depth (.obj [(name, v)]) (.obj [(name, w)]) := by
  refine ⟨⟨taken.1, trivial⟩, ?_⟩
  show (if depth < maxDepth then readCase cases (depth + 1) (.cons ⟨.ok name, none⟩ v.tree .closed)
    else .error .malformed) = .ok (.obj [(name, w)])
  rw [if_pos deep, readCase]
  simp only [bind, Except.bind, named, taken.2]
  rfl

end Choices

end Workshare.Json
