import Mathlib.Algebra.Group.Int.Defs
import Mathlib.Algebra.Group.Nat.Defs
import Workshare.Proofs.Json.Doubles
import Workshare.Proofs.Json.Values

namespace Workshare.Json

namespace Value

mutual

/-- Inside `depth` brackets a value is read back as it is. -/
def Portable (depth : Nat) : Value → Prop
  | .null => True
  | .bool _ => True
  | .int n => -2 ^ 63 ≤ n ∧ n < 2 ^ 64
  | .real _ => False
  | .str _ => True
  | .arr items => depth < maxDepth ∧ PortableItems (depth + 1) items
  | .obj members => depth < maxDepth ∧ members.Pairwise (·.1 < ·.1) ∧ PortableMembers (depth + 1) members

def PortableItems (depth : Nat) : List Value → Prop
  | [] => True
  | v :: rest => v.Portable depth ∧ PortableItems depth rest

def PortableMembers (depth : Nat) : List (String × Value) → Prop
  | [] => True
  | (_, v) :: rest => v.Portable depth ∧ PortableMembers depth rest

end

theorem portable_iff {v : Value} : ∀ {depth}, v.Portable depth ↔ v.Normal depth ∧ v.Reals fun _ => False := by
  refine induction (P := fun v => ∀ {depth}, v.Portable depth ↔ v.Normal depth ∧ v.Reals fun _ => False)
    (Q := fun vs => ∀ {depth}, PortableItems depth vs ↔ NormalItems depth vs ∧ RealsItems (fun _ => False) vs)
    (R := fun ms => ∀ {depth}, PortableMembers depth ms ↔ NormalMembers depth ms ∧ RealsMembers (fun _ => False) ms)
    ?null ?bool ?int ?real ?str ?arr ?obj ?_ ?_ ?_ ?_ v
  case null => exact (iff_of_eq (and_true _)).symm
  case bool => exact fun _ _ => (iff_of_eq (and_true _)).symm
  case int => exact fun _ _ => (iff_of_eq (and_true _)).symm
  case real => exact fun _ _ => (iff_of_eq (true_and _)).symm
  case str => exact fun _ _ => (iff_of_eq (and_true _)).symm
  case arr =>
    intro items ih depth
    rw [Portable, Normal, Reals, ih, and_assoc]
  case obj =>
    intro members ih depth
    rw [Portable, Normal, Reals, ih, and_assoc, and_assoc]
  · exact (iff_of_eq (and_true _)).symm
  · intro v vs ih ihs depth
    rw [PortableItems, NormalItems, RealsItems, ih, ihs]
    exact and_and_and_comm
  · exact (iff_of_eq (and_true _)).symm
  · intro k v ms ih ihs depth
    rw [PortableMembers, NormalMembers, RealsMembers, ih, ihs]
    exact and_and_and_comm

theorem Portable.reals {depth : Nat} {v : Value} (h : v.Portable depth) (p : Double → Prop) : v.Reals p :=
  (portable_iff.mp h).2.mono fun _ => False.elim

mutual

/-- The tree that the text of a value is read as. -/
def tree : Value → Raw
  | .null => .null
  | .bool b => .bool b
  | .int n => .num ⟨.ok (.int n), none⟩
  | .real x => .num ⟨.ok (.real x), none⟩
  | .str s => .str ⟨.ok s, none⟩
  | .arr items => .arr (treeItems items)
  | .obj members => .obj (treeMembers members)

def treeItems : List Value → Items
  | [] => .closed
  | v :: rest => .cons v.tree (treeItems rest)

def treeMembers : List (String × Value) → Members
  | [] => .closed
  | (k, v) :: rest => .cons ⟨.ok k, none⟩ v.tree (treeMembers rest)

end

mutual

/-- Whole numbers have 64 bits and doubles return, so that the text of a value says all of it. -/
def Legible : Value → Prop
  | .int n => -2 ^ 63 ≤ n ∧ n < 2 ^ 64
  | .real x => x.Returns
  | .arr items => LegibleItems items
  | .obj members => LegibleMembers members
  | _ => True

def LegibleItems : List Value → Prop
  | [] => True
  | v :: rest => v.Legible ∧ LegibleItems rest

def LegibleMembers : List (String × Value) → Prop
  | [] => True
  | (_, v) :: rest => v.Legible ∧ LegibleMembers rest

end

theorem Normal.legible {v : Value} : ∀ {depth}, v.Normal depth → v.Reals Double.Returns → v.Legible := by
  refine induction (P := fun v => ∀ {depth}, v.Normal depth → v.Reals Double.Returns → v.Legible)
    (Q := fun vs => ∀ {depth}, NormalItems depth vs → RealsItems Double.Returns vs → LegibleItems vs)
    (R := fun ms => ∀ {depth}, NormalMembers depth ms → RealsMembers Double.Returns ms → LegibleMembers ms)
    ?null ?bool ?int ?real ?str ?arr ?obj ?_ ?_ ?_ ?_ v
  case null => exact fun _ _ => trivial
  case bool => exact fun _ _ _ _ => trivial
  case int => exact fun _ _ h _ => h
  case real => exact fun _ _ _ h => h
  case str => exact fun _ _ _ _ => trivial
  case arr => exact fun _ ih _ h hx => ih h.2 hx
  case obj => exact fun _ ih _ h hx => ih h.2.2 hx
  · exact fun _ _ => trivial
  · exact fun _ _ ih ihs _ h hx => ⟨ih h.1 hx.1, ihs h.2 hx.2⟩
  · exact fun _ _ => trivial
  · exact fun _ _ _ ih ihs _ h hx => ⟨ih h.1 hx.1, ihs h.2 hx.2⟩

end Value

theorem insertMember_last {k : String} {v : Value} {got : List (String × Value)} (h : ∀ e ∈ got, e.1 < k) :
    Value.insertMember k v got = got ++ [(k, v)] := by
  induction got with
  | nil => rfl
  | cons e got ih =>
    have hlt := h e List.mem_cons_self
    have hnot : ¬ k < e.1 := fun hk => String.lt_irrefl _ (String.lt_trans hlt hk)
    have hne : k ≠ e.1 := fun he => String.lt_irrefl _ (he ▸ hlt)
    have rest := ih fun e he => h e (List.mem_cons_of_mem _ he)
    rw [Value.insertMember, if_neg hnot, if_neg hne, rest]
    rfl

/-- The tree of a value in normal form stands for that value; members come after those that were got before. -/
theorem value_tree {v : Value} : ∀ {depth}, v.Normal depth → v.tree.value depth = .ok v := by
  refine Value.induction (P := fun v => ∀ {depth}, v.Normal depth → v.tree.value depth = .ok v)
    (Q := fun vs => ∀ {depth}, Value.NormalItems depth vs → (Value.treeItems vs).values depth = .ok vs)
    (R := fun ms => ∀ {depth}, Value.NormalMembers depth ms → ms.Pairwise (·.1 < ·.1) →
      ∀ got, (∀ e ∈ got, ∀ m ∈ ms, e.1 < m.1) → (Value.treeMembers ms).values depth got = .ok (got ++ ms))
    ?null ?bool ?int ?real ?str ?arr ?obj ?noItems ?item ?noMembers ?member v
  case null => exact fun _ => by rw [Value.tree, Raw.value]
  case bool => exact fun _ _ _ => by rw [Value.tree, Raw.value]
  case int => exact fun _ _ _ => by rw [Value.tree, Raw.value]; rfl
  case real => exact fun _ _ _ => by rw [Value.tree, Raw.value]; rfl
  case str => exact fun _ _ _ => by rw [Value.tree, Raw.value]; rfl
  case arr =>
    intro items ih depth h
    rw [Value.tree, Raw.value, if_pos h.1, ih h.2]
    rfl
  case obj =>
    intro members ih depth h
    have nobody : ∀ e ∈ ([] : List (String × Value)), ∀ m ∈ members, e.1 < m.1 := by simp
    rw [Value.tree, Raw.value, if_pos h.1, ih h.2.2 h.2.1 [] nobody]
    rfl
  case noItems => exact fun _ => by rw [Value.treeItems, Items.values]
  case item =>
    intro v vs ih ihs depth h
    rw [Value.treeItems, Items.values, ih h.1, ihs h.2]
    rfl
  case noMembers =>
    intro depth _ _ got _
    rw [Value.treeMembers, Members.values, List.append_nil]
  case member =>
    intro k v ms ih ihs depth h sorted got after
    obtain ⟨first, sorted⟩ := List.pairwise_cons.mp sorted
    have last := insertMember_last (v := v) fun e he => after e he _ List.mem_cons_self
    rw [Value.treeMembers, Members.values, ih h.1]
    show Members.values depth (Value.insertMember k v got) (Value.treeMembers ms) = _
    rw [last, ihs h.2 sorted, List.append_assoc]
    · rfl
    · intro e he m hm
      rcases List.mem_append.mp he with he | he
      · exact after e he m (List.mem_cons_of_mem _ hm)
      · rw [List.mem_singleton.mp he]
        exact first m hm

theorem value?_hexDigit {d : Nat} (h : d < 16) : Hex.value? (Quoted.hexDigit d) = some d := by
  have all : ∀ d < 16, Hex.value? (Quoted.hexDigit d) = some d := by decide
  exact all d h

theorem readHex4_control {n : Nat} (h : n < 32) :
    readHex4 ['0', '0', Quoted.hexDigit (n / 16), Quoted.hexDigit (n % 16)] = .ok (n, []) := by
  have zero : Hex.value? '0' = some 0 := rfl
  have sum : ((0 * 16 + 0) * 16 + n / 16) * 16 + n % 16 = n := by omega
  unfold readHex4
  simp only [zero, value?_hexDigit (show n / 16 < 16 by omega), value?_hexDigit (show n % 16 < 16 by omega), sum]

theorem readString_escape (p : Partial) (c : Char) (rest : List Char) :
    readString p false (escapeChar c ++ rest) = readString (p.push c) false rest := by
  unfold escapeChar
  split
  next h => subst h; rfl
  split
  next h => subst h; rfl
  split
  next h => subst h; rfl
  split
  next h => subst h; rfl
  split
  next h => subst h; rfl
  split
  next h =>
    have hc : c = Char.ofNat 8 := by rw [← h, Char.ofNat_toNat]
    subst hc; rfl
  split
  next h =>
    have hc : c = Char.ofNat 12 := by rw [← h, Char.ofNat_toNat]
    subst hc; rfl
  split
  next h =>
    have hc : Char.ofNat c.toNat = c := Char.ofNat_toNat c
    simp only [List.cons_append, List.nil_append]
    rw [readString, readHex4_control h]
    have low : ¬ (0xDC00 ≤ c.toNat ∧ c.toNat ≤ 0xDFFF) := by omega
    have high : ¬ (0xD800 ≤ c.toNat ∧ c.toNat ≤ 0xDBFF) := by omega
    simp only [Bool.false_eq_true, if_false, if_neg low, if_neg high, hc]
  next h1 h2 h3 h4 h5 h6 h7 h8 =>
    simp only [List.cons_append, List.nil_append]
    rw [readString, if_neg h8] <;> simp_all

theorem readString_print (p : List Char) (cs rest : List Char) :
    readString (.ok p) false (cs.flatMap escapeChar ++ '"' :: rest) =
      (⟨.ok (String.ofList (p.reverse ++ cs)), none⟩, rest) := by
  induction cs generalizing p with
  | nil =>
    rw [List.append_nil]
    rfl
  | cons c cs ih =>
    rw [List.flatMap_cons, List.append_assoc, readString_escape]
    have pushed := ih (c :: p)
    rw [List.reverse_cons, List.append_assoc, List.singleton_append] at pushed
    exact pushed

theorem readString_quote (s : String) (rest : List Char) :
    readString (.ok []) false (s.toList.flatMap escapeChar ++ '"' :: rest) = (⟨.ok s, none⟩, rest) := by
  rw [readString_print]
  simp

theorem print_cons {v : Value} (h : v.Legible) :
    ∃ c cs, v.print = c :: cs ∧ isBlank c = false ∧ c ≠ ']' := by
  cases v with
  | null => exact ⟨_, _, rfl, by decide, by decide⟩
  | bool b => cases b <;> exact ⟨_, _, rfl, by decide, by decide⟩
  | int n =>
    obtain ⟨c, cs, hd, hc⟩ := digits_cons n.natAbs
    have hp : (Value.int n).print = if n < 0 then '-' :: Decimal.digits n.natAbs else Decimal.digits n.natAbs := rfl
    rw [hp]
    split
    next => exact ⟨_, _, rfl, by decide, by decide⟩
    next => exact ⟨c, cs, hd, isBlank_of_isDigit hc, ne_of_isDigit hc (by decide)⟩
  | real x =>
    obtain ⟨leaf, _, ⟨cs, text, _⟩ | ⟨c, cs, text, digit, _⟩⟩ := readNumber_of_returns h
    · exact ⟨_, _, text, by decide, by decide⟩
    · exact ⟨_, _, text, isBlank_of_isDigit digit, ne_of_isDigit digit (by decide)⟩
  | str s => exact ⟨_, _, rfl, by decide, by decide⟩
  | arr items => exact ⟨_, _, rfl, by decide, by decide⟩
  | obj members => exact ⟨_, _, rfl, by decide, by decide⟩

theorem readValue_int {n : Int} (h : -2 ^ 63 ≤ n ∧ n < 2 ^ 64) (fuel : Nat) {rest : List Char} (hr : Stops rest) :
    readValue (fuel + 1) ((Value.int n).print ++ rest) = ((Value.int n).tree, rest) := by
  have hp : (Value.int n).print = if n < 0 then '-' :: Decimal.digits n.natAbs else Decimal.digits n.natAbs := rfl
  rw [hp, Value.tree]
  split
  next hn =>
    have value := value_negative_digits (n := n.natAbs) (by omega) (by omega)
    have sign : -(n.natAbs : Int) = n := by omega
    have read := readNumber_digits hr true n.natAbs
    have minus : ∀ cs, readValue (fuel + 1) ('-' :: cs) = (.num (readNumber true cs).1, (readNumber true cs).2) :=
      fun _ => rfl
    rw [List.cons_append, minus, read, value, sign]
  next hn =>
    have value := value_digits (n := n.natAbs) (by omega)
    have sign : (n.natAbs : Int) = n := by omega
    obtain ⟨c, cs, hd, hc⟩ := digits_cons n.natAbs
    have read := readNumber_digits hr false n.natAbs
    rw [hd, List.cons_append] at read ⊢
    rw [← hd] at read
    rw [readValue_digits hc, read, value, sign]

theorem readValue_real {x : Double} (h : x.Returns) (fuel : Nat) {rest : List Char} (hr : Stops rest) :
    readValue (fuel + 1) ((Value.real x).print ++ rest) = ((Value.real x).tree, rest) := by
  have print : (Value.real x).print = x.text := rfl
  obtain ⟨leaf, strict, signed⟩ := readNumber_of_returns h
  rw [print, Value.tree]
  obtain ⟨cs, text, read⟩ | ⟨c, cs, text, digit, read⟩ := signed
  · have minus : ∀ cs, readValue (fuel + 1) ('-' :: cs) = (.num (readNumber true cs).1, (readNumber true cs).2) :=
      fun _ => rfl
    rw [text, List.cons_append, minus, readNumber_append hr strict read, ← Leaf.eq_of_readNumber read strict]
  · have stopped := readNumber_append hr strict read
    rw [List.cons_append] at stopped
    rw [text, List.cons_append, readValue_digits digit, stopped, ← Leaf.eq_of_readNumber read strict]

theorem readValue_quote (fuel : Nat) (s : String) (rest : List Char) :
    readValue (fuel + 1) ('"' :: (s.toList.flatMap escapeChar ++ '"' :: rest)) = (.str ⟨.ok s, none⟩, rest) := by
  have opened : ∀ cs, readValue (fuel + 1) ('"' :: cs) =
      (.str (readString (.ok []) false cs).1, (readString (.ok []) false cs).2) := fun _ => rfl
  rw [opened, readString_quote]

section Brackets

variable {fuel : Nat} {cs rest : List Char} {raw : Raw}

theorem readValue_bracket {c : Char} (hb : isBlank c = false) (hc : c ≠ ']') {items : Items}
    (h : readItems fuel (c :: cs) = (items, rest)) : readValue (fuel + 1) ('[' :: c :: cs) = (.arr items, rest) := by
  have skipped := skipBlanks_cons hb cs
  rw [readValue, skipBlanks_cons (by decide)]
  dsimp only
  rw [if_neg (by decide), if_neg (by decide), if_neg (by decide), if_neg (by decide), if_neg (by decide),
    if_neg (by decide), if_pos rfl, skipped]
  split
  next he => cases he
  next he => cases he; exact absurd rfl hc
  next => rw [h]

theorem readValue_brace {members : Members} (h : readMembers fuel ('"' :: cs) = (members, rest)) :
    readValue (fuel + 1) ('\x7b' :: '"' :: cs) = (.obj members, rest) := by
  have opened : readValue (fuel + 1) ('\x7b' :: '"' :: cs) =
      (.obj (readMembers fuel ('"' :: cs)).1, (readMembers fuel ('"' :: cs)).2) := rfl
  rw [opened, h]

theorem readItems_last (h : readValue fuel cs = (raw, ']' :: rest)) :
    readItems (fuel + 1) cs = (.cons raw .closed, rest) := by
  rw [readItems, h]
  rfl

theorem readItems_more {after : List Char} {items : Items} (h : readValue fuel cs = (raw, ',' :: rest))
    (hi : readItems fuel rest = (items, after)) : readItems (fuel + 1) cs = (.cons raw items, after) := by
  rw [readItems, h]
  show (Items.cons raw (readItems fuel rest).1, (readItems fuel rest).2) = _
  rw [hi]

theorem readMembers_last {key : Leaf String} {body : List Char}
    (hk : readString (.ok []) false cs = (key, ':' :: body)) (h : readValue fuel body = (raw, '\x7d' :: rest)) :
    readMembers (fuel + 1) ('"' :: cs) = (.cons key raw .closed, rest) := by
  have colon : skipBlanks (':' :: body) = ':' :: body := skipBlanks_cons (by decide) body
  have brace : skipBlanks ('\x7d' :: rest) = '\x7d' :: rest := skipBlanks_cons (by decide) rest
  rw [readMembers, skipBlanks_cons (by decide)]
  simp only [hk, colon, h, brace]

theorem readMembers_more {key : Leaf String} {body after : List Char} {members : Members}
    (hk : readString (.ok []) false cs = (key, ':' :: body)) (h : readValue fuel body = (raw, ',' :: rest))
    (hm : readMembers fuel rest = (members, after)) :
    readMembers (fuel + 1) ('"' :: cs) = (.cons key raw members, after) := by
  have colon : skipBlanks (':' :: body) = ':' :: body := skipBlanks_cons (by decide) body
  have comma : skipBlanks (',' :: rest) = ',' :: rest := skipBlanks_cons (by decide) rest
  rw [readMembers, skipBlanks_cons (by decide)]
  simp only [hk, colon, h, comma, hm]

end Brackets

/-- With this fuel the tree of a value is read from its text, whatever stops it. -/
def ReadsValue (fuel : Nat) : Prop :=
  ∀ (v : Value) (rest : List Char), v.Legible → v.print.length ≤ fuel → Stops rest →
    readValue fuel (v.print ++ rest) = (v.tree, rest)

def ReadsItems (fuel : Nat) : Prop :=
  ∀ (v : Value) (vs : List Value) (rest : List Char), Value.LegibleItems (v :: vs) →
    (Value.printItems (v :: vs)).length < fuel →
    readItems fuel (Value.printItems (v :: vs) ++ ']' :: rest) = (Value.treeItems (v :: vs), rest)

def ReadsMembers (fuel : Nat) : Prop :=
  ∀ (k : String) (v : Value) (ms : List (String × Value)) (rest : List Char), Value.LegibleMembers ((k, v) :: ms) →
    (Value.printMembers ((k, v) :: ms)).length < fuel →
    readMembers fuel (Value.printMembers ((k, v) :: ms) ++ '\x7d' :: rest) = (Value.treeMembers ((k, v) :: ms), rest)

theorem readsValue_arr {fuel : Nat} (hi : ReadsItems fuel) {items : List Value} (h : Value.LegibleItems items)
    (hf : (Value.arr items).print.length ≤ fuel + 1) (rest : List Char) :
    readValue (fuel + 1) ((Value.arr items).print ++ rest) = ((Value.arr items).tree, rest) := by
  cases items with
  | nil => rfl
  | cons v vs =>
    have hlen : (Value.printItems (v :: vs)).length < fuel := by
      simp only [Value.print, List.cons_append, List.length_cons, List.length_append, List.length_nil] at hf
      omega
    have read := hi v vs rest h hlen
    obtain ⟨c, cs, hc, hb, hne⟩ := print_cons h.1
    obtain ⟨cs', starts⟩ : ∃ cs', Value.printItems (v :: vs) = c :: cs' := by
      cases vs with
      | nil => exact ⟨cs, hc⟩
      | cons w ws => exact ⟨cs ++ ',' :: Value.printItems (w :: ws), by rw [Value.printItems, hc]; rfl⟩
    rw [Value.print, Value.tree, starts]
    rw [starts] at read
    simp only [List.cons_append, List.append_assoc, List.nil_append] at read ⊢
    exact readValue_bracket hb hne read

theorem readsValue_obj {fuel : Nat} (hm : ReadsMembers fuel) {members : List (String × Value)}
    (h : Value.LegibleMembers members) (hf : (Value.obj members).print.length ≤ fuel + 1) (rest : List Char) :
    readValue (fuel + 1) ((Value.obj members).print ++ rest) = ((Value.obj members).tree, rest) := by
  cases members with
  | nil => rfl
  | cons e ms =>
    obtain ⟨k, v⟩ := e
    have hlen : (Value.printMembers ((k, v) :: ms)).length < fuel := by
      simp only [Value.print, List.cons_append, List.length_cons, List.length_append, List.length_nil] at hf
      omega
    have read := hm k v ms rest h hlen
    obtain ⟨cs, starts⟩ : ∃ cs, Value.printMembers ((k, v) :: ms) = '"' :: cs := by
      cases ms with
      | nil => exact ⟨_, rfl⟩
      | cons m ms => exact ⟨_, by rw [Value.printMembers]; rfl⟩
    rw [Value.print, Value.tree, starts]
    rw [starts] at read
    simp only [List.cons_append, List.append_assoc, List.nil_append] at read ⊢
    exact readValue_brace read

theorem readsValue_succ {fuel : Nat} (hi : ReadsItems fuel) (hm : ReadsMembers fuel) : ReadsValue (fuel + 1) := by
  intro v rest h hf hr
  cases v with
  | null => rfl
  | bool b => cases b <;> rfl
  | int n => exact readValue_int h fuel hr
  | real x => exact readValue_real h fuel hr
  | str s =>
    rw [Value.print, Value.tree, quote]
    simp only [List.cons_append, List.append_assoc, List.nil_append]
    exact readValue_quote fuel s rest
  | arr items => exact readsValue_arr hi h hf rest
  | obj members => exact readsValue_obj hm h hf rest

theorem readsItems_succ {fuel : Nat} (hv : ReadsValue fuel) (hi : ReadsItems fuel) : ReadsItems (fuel + 1) := by
  intro v vs rest h hf
  cases vs with
  | nil =>
    rw [Value.printItems] at hf ⊢
    exact readItems_last (hv v (']' :: rest) h.1 (by omega) (.inr ⟨_, _, rfl, by simp⟩))
  | cons w ws =>
    rw [Value.printItems, List.length_append, List.length_cons] at hf
    obtain ⟨c, cs, hp, _⟩ := print_cons h.1
    have some : 0 < v.print.length := by rw [hp]; exact Nat.succ_pos _
    have read := hv v (',' :: (Value.printItems (w :: ws) ++ ']' :: rest)) h.1 (by omega) (.inr ⟨_, _, rfl, by simp⟩)
    have reads := hi w ws rest h.2 (by omega)
    rw [Value.printItems, List.append_assoc, List.cons_append]
    exact readItems_more read reads

theorem readsMembers_succ {fuel : Nat} (hv : ReadsValue fuel) (hm : ReadsMembers fuel) : ReadsMembers (fuel + 1) := by
  intro k v ms rest h hf
  cases ms with
  | nil =>
    simp only [Value.printMembers, quote, List.length_cons, List.length_append] at hf
    have read := hv v ('\x7d' :: rest) h.1 (by omega) (.inr ⟨_, _, rfl, by simp⟩)
    have key := readString_quote k (':' :: (v.print ++ '\x7d' :: rest))
    rw [Value.printMembers, quote]
    simp only [List.cons_append, List.append_assoc, List.nil_append]
    exact readMembers_last key read
  | cons m ms =>
    obtain ⟨k', v'⟩ := m
    simp only [Value.printMembers, quote, List.length_cons, List.length_append] at hf
    have read := hv v (',' :: (Value.printMembers ((k', v') :: ms) ++ '\x7d' :: rest)) h.1 (by omega)
      (.inr ⟨_, _, rfl, by simp⟩)
    have reads := hm k' v' ms rest h.2 (by omega)
    have key := readString_quote k (':' :: (v.print ++ ',' :: (Value.printMembers ((k', v') :: ms) ++ '\x7d' :: rest)))
    rw [Value.printMembers, quote]
    simp only [List.cons_append, List.append_assoc, List.nil_append]
    exact readMembers_more key read reads

/-- The fuel is spent along the brackets, and the text is longer than they are deep. -/
theorem reads (fuel : Nat) : ReadsValue fuel ∧ ReadsItems fuel ∧ ReadsMembers fuel := by
  -- each reader calls the others with less fuel, so one induction serves all three
  induction fuel with
  | zero =>
    refine ⟨?_, ?_, ?_⟩
    · intro v rest h hf
      obtain ⟨c, cs, hp, _⟩ := print_cons h
      rw [hp] at hf
      cases hf
    · intro v vs rest _ hf
      cases hf
    · intro k v ms rest _ hf
      cases hf
  | succ fuel ih =>
    obtain ⟨hv, hi, hm⟩ := ih
    exact ⟨readsValue_succ hi hm, readsItems_succ hv hi, readsMembers_succ hv hm⟩

/-- The text of a value is read as its tree, and nothing is left over. -/
theorem read_print {v : Value} (h : v.Legible) : Raw.read v.text.toList = (v.tree, []) := by
  have read := (reads (2 * v.print.length + 1)).1 v [] h (by omega) (.inl rfl)
  rw [List.append_nil] at read
  rw [Value.text, String.toList_ofList, Raw.read, read]

theorem read_anything (depth : Nat) (raw : Raw) : Shape.anything.read depth raw = raw.value depth := by
  cases raw <;> rfl

theorem Value.read_normal {v : Value} (h : v.Normal 0) (hx : v.Reals Double.Returns) : Value.read v.text = .ok v := by
  unfold Value.read Shape.readText
  rw [read_print (h.legible hx)]
  simp only [read_anything, value_tree h]
  rfl

theorem Value.read_text {v : Value} (h : v.Portable 0) : Value.read v.text = .ok v :=
  read_normal (portable_iff.mp h).1 (h.reals _)

end Workshare.Json
