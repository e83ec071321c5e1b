import Workshare.Proofs.Results
import Workshare.Proofs.Wire.RoundTrip

namespace Workshare.Wire

/-- The input ends inside a field. -/
def Fault.IsIo (f : Fault) : Prop :=
  f = .cutShort ∨ f = .cutContents

theorem takeBytes_ok {f : Fault} {count : Nat} {bs w rest : List UInt8} (h : takeBytes f count bs = .ok (w, rest)) :
    bs = w ++ rest ∧ w.length = count := by
  unfold takeBytes at h
  split at h
  next enough =>
    cases h
    exact ⟨(List.take_append_drop count bs).symm, List.length_take_of_le enough⟩
  next => cases h

theorem takeBytes_cut (f : Fault) {count : Nat} {bs : List UInt8} (h : bs.length < count) :
    takeBytes f count bs = .error f :=
  if_neg (Nat.not_le_of_lt h)

theorem ofLittleEndian_lt (bs : List UInt8) : ofLittleEndian bs < 256 ^ bs.length := by
  induction bs with
  | nil => exact Nat.one_pos
  | cons b bs ih =>
    have hb := b.toNat_lt
    rw [ofLittleEndian, List.length_cons, Nat.pow_succ]
    omega

theorem littleEndian_ofLittleEndian (bs : List UInt8) : littleEndian bs.length (ofLittleEndian bs) = bs := by
  induction bs with
  | nil => rfl
  | cons b bs ih =>
    have hb := b.toNat_lt
    have high : (b.toNat + 256 * ofLittleEndian bs) / 256 = ofLittleEndian bs := by omega
    have low : (b.toNat + 256 * ofLittleEndian bs).toUInt8 = b := by
      apply UInt8.toNat_inj.mp
      rw [Nat.toUInt8, UInt8.toNat_ofNat']
      omega
    rw [List.length_cons, ofLittleEndian, littleEndian, high, low, ih]

theorem readWord_ok {count n : Nat} {bs rest : List UInt8} (h : readWord count bs = .ok (n, rest)) :
    bs = littleEndian count n ++ rest ∧ n < 256 ^ count := by
  unfold readWord at h
  obtain ⟨p, taken, word⟩ := Except.exists_of_map h
  cases word
  obtain ⟨parts, len⟩ := takeBytes_ok taken
  subst len
  rw [littleEndian_ofLittleEndian]
  exact ⟨parts, ofLittleEndian_lt p.1⟩

theorem readWord_cut {count : Nat} {bs : List UInt8} (h : bs.length < count) : readWord count bs = .error .cutShort := by
  rw [readWord, takeBytes_cut _ h]
  rfl

namespace Codec

variable {α β : Type}

/-- The bytes that were read are those that are written. -/
def Exact (c : Codec α) : Prop :=
  ∀ bs rest a, c.read bs = .ok (a, rest) → bs = c.write a ++ rest

theorem read_of_decode {c : Codec α} {bs : List UInt8} {a : α} (h : c.decode bs = .ok a) :
    ∃ rest, c.read bs = .ok (a, rest) := by
  obtain ⟨⟨a', rest⟩, read, rfl⟩ := Except.exists_of_map h
  exact ⟨rest, read⟩

theorem read_imap {c : Codec α} {f : α → β} {g : β → α} {bs rest : List UInt8} {b : β}
    (h : (c.imap f g).read bs = .ok (b, rest)) : ∃ a, c.read bs = .ok (a, rest) ∧ f a = b := by
  obtain ⟨p, read, same⟩ := Except.exists_of_map (x := c.read bs) (f := fun p => (f p.1, p.2)) h
  cases same
  exact ⟨p.1, read, rfl⟩

theorem read_pair {c : Codec α} {d : Codec β} {bs rest : List UInt8} {p : α × β}
    (h : (c.pair d).read bs = .ok (p, rest)) : ∃ mid, c.read bs = .ok (p.1, mid) ∧ d.read mid = .ok (p.2, rest) := by
  obtain ⟨⟨a, mid⟩, first, h⟩ := Except.exists_of_bind h
  obtain ⟨⟨b, rest'⟩, second, h⟩ := Except.exists_of_bind h
  cases h
  exact ⟨mid, first, second⟩

theorem Exact.imap {c : Codec α} {f : α → β} {g : β → α} (h : c.Exact)
    (hgf : ∀ bs rest a, c.read bs = .ok (a, rest) → c.write (g (f a)) = c.write a) : (c.imap f g).Exact := by
  intro bs rest b hb
  obtain ⟨a, read, rfl⟩ := read_imap hb
  show bs = c.write (g (f a)) ++ rest
  rw [hgf _ _ _ read]
  exact h _ _ _ read

theorem Exact.pair {c : Codec α} {d : Codec β} (hc : c.Exact) (hd : d.Exact) : (c.pair d).Exact := by
  intro bs rest p h
  obtain ⟨mid, first, second⟩ := read_pair h
  show bs = (c.write p.1 ++ d.write p.2) ++ rest
  rw [hc _ _ _ first, hd _ _ _ second, List.append_assoc]

theorem exact_readWord {count : Nat} {f : Nat → α} {g : α → Nat} (hgf : ∀ n < 256 ^ count, g (f n) = n)
    {bs rest : List UInt8} {a : α} (h : (readWord count bs).map (fun p => (f p.1, p.2)) = .ok (a, rest)) :
    bs = littleEndian count (g a) ++ rest := by
  obtain ⟨p, word, same⟩ := Except.exists_of_map h
  cases same
  obtain ⟨parts, small⟩ := readWord_ok word
  rw [hgf _ small]
  exact parts

theorem exact_word16 : word16.Exact := fun _ _ _ =>
  exact_readWord (g := UInt16.toNat) fun _ h => UInt16.toNat_ofNat_of_lt (by simpa using h)

theorem exact_word64 : word64.Exact := fun _ _ _ =>
  exact_readWord (g := UInt64.toNat) fun _ h => UInt64.toNat_ofNat_of_lt (by simpa using h)

theorem exact_flag : flag.Exact := by
  intro bs rest b h
  unfold flag at h ⊢
  dsimp only at h ⊢
  split at h
  next => cases h
  next byte bs =>
    split at h
    next zero => cases h; rw [zero]; rfl
    next =>
      split at h
      next one => cases h; rw [one]; rfl
      next => cases h

theorem read_string {bs rest : List UInt8} {s : String} (h : string.read bs = .ok (s, rest)) :
    bs = string.write s ++ rest ∧ Fits s := by
  obtain ⟨⟨n, body⟩, len, h⟩ := Except.exists_of_bind h
  obtain ⟨⟨contents, rest'⟩, taken, h⟩ := Except.exists_of_bind h
  dsimp only at taken h
  split at h
  next cs decoded =>
    cases h
    obtain ⟨parts, small⟩ := readWord_ok len
    obtain ⟨parts', long⟩ := takeBytes_ok taken
    have back : Utf8.encode (String.ofList cs).toList = contents := by
      rw [String.toList_ofList]
      exact Utf8.encode_of_decode decoded
    refine ⟨?_, ?_⟩
    · show bs = (littleEndian 8 (Utf8.encode (String.ofList cs).toList).length ++ _) ++ rest
      rw [back, long, parts, parts', List.append_assoc]
    · unfold Fits
      rw [back, long]
      omega
  next => cases h

theorem exact_string : string.Exact :=
  fun _ _ _ h => (read_string h).1

theorem read_either {c : Codec α} {d : Codec β} {bs rest : List UInt8} {v : α ⊕ β}
    (h : (c.either d).read bs = .ok (v, rest)) :
    ∃ mid, (∃ a, v = .inl a ∧ bs = littleEndian 4 0 ++ mid ∧ c.read mid = .ok (a, rest)) ∨
      ∃ b, v = .inr b ∧ bs = littleEndian 4 1 ++ mid ∧ d.read mid = .ok (b, rest) := by
  obtain ⟨⟨tag, mid⟩, word, h⟩ := Except.exists_of_bind h
  dsimp only at h
  obtain ⟨parts, _⟩ := readWord_ok word
  refine ⟨mid, ?_⟩
  split at h
  next zero =>
    obtain ⟨⟨a, rest'⟩, read, h⟩ := Except.exists_of_bind h
    cases h
    exact .inl ⟨a, rfl, zero ▸ parts, read⟩
  next =>
    split at h
    next one =>
      obtain ⟨⟨b, rest'⟩, read, h⟩ := Except.exists_of_bind h
      cases h
      exact .inr ⟨b, rfl, one ▸ parts, read⟩
    next => cases h

theorem Exact.either {c : Codec α} {d : Codec β} (hc : c.Exact) (hd : d.Exact) : (c.either d).Exact := by
  intro bs rest v h
  obtain ⟨mid, ⟨a, rfl, parts, read⟩ | ⟨b, rfl, parts, read⟩⟩ := read_either h
  · show bs = (littleEndian 4 0 ++ c.write a) ++ rest
    rw [parts, hc _ _ _ read, List.append_assoc]
  · show bs = (littleEndian 4 1 ++ d.write b) ++ rest
    rw [parts, hd _ _ _ read, List.append_assoc]

theorem read_tagged {n : Nat} {body : Fin n → Type} {c : (i : Fin n) → Codec (body i)} {bs rest : List UInt8}
    {v : (i : Fin n) × body i} (h : (tagged n body c).read bs = .ok (v, rest)) :
    ∃ mid, bs = littleEndian 4 v.1.val ++ mid ∧ (c v.1).read mid = .ok (v.2, rest) := by
  obtain ⟨⟨tag, mid⟩, word, h⟩ := Except.exists_of_bind h
  dsimp only at h
  obtain ⟨parts, _⟩ := readWord_ok word
  split at h
  next known =>
    obtain ⟨⟨b, rest'⟩, read, h⟩ := Except.exists_of_bind h
    cases h
    exact ⟨mid, parts, read⟩
  next => cases h

/-- Every proper beginning of what is written for a value is refused for its end. -/
def Cuts (c : Codec α) (a : α) : Prop :=
  ∀ front back, c.write a = front ++ back → back ≠ [] → ∃ f, f.IsIo ∧ c.read front = .error f

theorem append_cut {w v front back : List UInt8} (h : w ++ v = front ++ back) :
    (∃ mid, w = front ++ mid ∧ mid ≠ []) ∨ ∃ mid, front = w ++ mid ∧ v = mid ++ back := by
  rcases List.append_eq_append_iff.mp h with ⟨mid, hfront, hv⟩ | ⟨mid, hw, hback⟩
  · exact .inr ⟨mid, hfront, hv⟩
  · cases mid with
    | nil =>
      rw [List.append_nil] at hw
      exact .inr ⟨[], by rw [List.append_nil, hw], hback.symm⟩
    | cons m mid => exact .inl ⟨m :: mid, hw, by simp⟩

theorem bind_error {e : Except Fault (α × List UInt8)} {g : α × List UInt8 → Except Fault (β × List UInt8)} {f : Fault}
    (h : e = .error f) : e.bind g = .error f := by
  rw [h]
  rfl

theorem bind_ok {e : Except Fault (α × List UInt8)} {g : α × List UInt8 → Except Fault (β × List UInt8)}
    {r : Except Fault (β × List UInt8)} {p : α × List UInt8} (h : e = .ok p) (hg : g p = r) : e.bind g = r := by
  rw [h]
  exact hg

theorem Cuts.imap {c : Codec α} {f : α → β} {g : β → α} {b : β} (h : c.Cuts (g b)) : (c.imap f g).Cuts b := by
  intro front back split rest
  obtain ⟨e, io, read⟩ := h _ _ split rest
  refine ⟨e, io, ?_⟩
  show (c.read front).map _ = _
  rw [read]
  rfl

theorem Cuts.pair {c : Codec α} {d : Codec β} {a : α} {b : β} (ha : c.Keeps a) (hc : c.Cuts a) (hd : d.Cuts b) :
    (c.pair d).Cuts (a, b) := by
  intro front back split rest
  rcases append_cut split with ⟨mid, hw, some⟩ | ⟨mid, hfront, hb⟩
  · obtain ⟨f, io, read⟩ := hc _ _ hw some
    exact ⟨f, io, bind_error read⟩
  · obtain ⟨f, io, read⟩ := hd _ _ hb rest
    exact ⟨f, io, bind_ok (hfront ▸ ha mid) (bind_error read)⟩

theorem readWord_split {count n : Nat} (hn : n < 256 ^ count) {body front back : List UInt8}
    (h : littleEndian count n ++ body = front ++ back) :
    readWord count front = .error .cutShort ∨ ∃ mid, readWord count front = .ok (n, mid) ∧ body = mid ++ back := by
  rcases append_cut h with ⟨mid, hw, some⟩ | ⟨mid, hfront, hb⟩
  · have len := congrArg List.length hw
    rw [length_littleEndian, List.length_append] at len
    have := List.length_pos_iff.mpr some
    exact .inl (readWord_cut (by omega))
  · exact .inr ⟨mid, by rw [hfront, readWord_littleEndian hn], hb⟩

theorem cuts_readWord {count n : Nat} {g : Nat × List UInt8 → α × List UInt8} {front back : List UInt8}
    (h : littleEndian count n = front ++ back) (hb : back ≠ []) :
    ∃ f : Fault, f.IsIo ∧ (readWord count front).map g = .error f := by
  have len := congrArg List.length h
  rw [length_littleEndian, List.length_append] at len
  have some := List.length_pos_iff.mpr hb
  exact ⟨.cutShort, .inl rfl, by rw [readWord_cut (by omega)]; rfl⟩

theorem cuts_word16 (n : UInt16) : word16.Cuts n := fun _ _ =>
  cuts_readWord

theorem cuts_word64 (n : UInt64) : word64.Cuts n := fun _ _ =>
  cuts_readWord

theorem cuts_flag (b : Bool) : flag.Cuts b := by
  intro front back h hb
  cases front with
  | nil => exact ⟨.cutShort, .inl rfl, rfl⟩
  | cons byte front =>
    have len := congrArg List.length h
    have some := List.length_pos_iff.mpr hb
    have one : (flag.write b).length = 1 := rfl
    rw [one, List.length_append, List.length_cons] at len
    omega

theorem cuts_string {s : String} (h : Fits s) : string.Cuts s := by
  intro front back split rest
  have small : (Utf8.encode s.toList).length < 256 ^ 8 := by unfold Fits at h; omega
  rcases readWord_split small split with cut | ⟨mid, word, body⟩
  · exact ⟨.cutShort, .inl rfl, bind_error cut⟩
  · have len := congrArg List.length body
    rw [List.length_append] at len
    have some := List.length_pos_iff.mpr rest
    have short : takeBytes .cutContents (Utf8.encode s.toList).length mid = .error .cutContents :=
      takeBytes_cut _ (by omega)
    exact ⟨.cutContents, .inr rfl, bind_ok word (bind_error short)⟩

theorem cuts_inl {c : Codec α} (d : Codec β) {a : α} (h : c.Cuts a) : (c.either d).Cuts (.inl a) := by
  intro front back split rest
  rcases readWord_split (by omega) split with cut | ⟨mid, word, body⟩
  · exact ⟨.cutShort, .inl rfl, bind_error cut⟩
  · obtain ⟨f, io, read⟩ := h _ _ body rest
    exact ⟨f, io, bind_ok word (bind_error read)⟩

theorem cuts_inr (c : Codec α) {d : Codec β} {b : β} (h : d.Cuts b) : (c.either d).Cuts (.inr b) := by
  intro front back split rest
  rcases readWord_split (by omega) split with cut | ⟨mid, word, body⟩
  · exact ⟨.cutShort, .inl rfl, bind_error cut⟩
  · obtain ⟨f, io, read⟩ := h _ _ body rest
    exact ⟨f, io, bind_ok word (bind_error read)⟩

end Codec

end Workshare.Wire
