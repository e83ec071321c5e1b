import Mathlib.Algebra.Group.Nat.Defs
import Workshare.Proofs.Text.Utf8
import Workshare.Request
import Workshare.Reply

namespace Workshare

/-- The length of a text in bytes can be written down in 64 bits. -/
def Fits (s : String) : Prop :=
  (Utf8.encode s.toList).length < 2 ^ 64

instance (s : String) : Decidable (Fits s) :=
  inferInstanceAs (Decidable (_ < _))

namespace Wire

@[simp] theorem length_littleEndian (count n : Nat) : (littleEndian count n).length = count := by
  induction count generalizing n with
  | zero => rfl
  | succ count ih => rw [littleEndian, List.length_cons, ih]

theorem ofLittleEndian_littleEndian {count n : Nat} (h : n < 256 ^ count) :
    ofLittleEndian (littleEndian count n) = n := by
  induction count generalizing n with
  | zero => simp only [Nat.pow_zero] at h; simp only [littleEndian, ofLittleEndian]; omega
  | succ count ih =>
    have hn : n / 256 < 256 ^ count := by
      rw [Nat.pow_succ] at h
      exact Nat.div_lt_of_lt_mul (by omega)
    have hb : n.toUInt8.toNat = n % 256 := UInt8.toNat_ofNat'
    rw [littleEndian, ofLittleEndian, ih hn, hb]
    omega

theorem takeBytes_append (f : Fault) (bs rest : List UInt8) :
    takeBytes f bs.length (bs ++ rest) = .ok (bs, rest) := by
  unfold takeBytes
  rw [if_pos (by simp)]
  simp

theorem readWord_littleEndian {count n : Nat} (h : n < 256 ^ count) (rest : List UInt8) :
    readWord count (littleEndian count n ++ rest) = .ok (n, rest) := by
  have ht := takeBytes_append .cutShort (littleEndian count n) rest
  rw [length_littleEndian] at ht
  rw [readWord, ht]
  simp only [Except.map, ofLittleEndian_littleEndian h]

namespace Codec

variable {α β : Type}

/-- A value comes back as it was, and what follows it is left over. -/
def Keeps (c : Codec α) (a : α) : Prop :=
  ∀ rest, c.read (c.write a ++ rest) = .ok (a, rest)

theorem Keeps.decode_append {c : Codec α} {a : α} (h : c.Keeps a) (rest : List UInt8) :
    c.decode (c.write a ++ rest) = .ok a := by
  rw [Codec.decode, h rest]
  rfl

theorem Keeps.decode {c : Codec α} {a : α} (h : c.Keeps a) : c.decode (c.write a) = .ok a := by
  have hr := h.decode_append []
  rw [List.append_nil] at hr
  exact hr

theorem Keeps.imap {c : Codec α} {f : α → β} {g : β → α} {b : β} (h : c.Keeps (g b)) (hfg : f (g b) = b) :
    (c.imap f g).Keeps b := by
  intro rest
  show (c.read (c.write (g b) ++ rest)).map _ = _
  rw [h rest]
  simp only [Except.map, hfg]

theorem pair_read {c : Codec α} {d : Codec β} {a : α} {b : β} {bs mid rest : List UInt8}
    (hc : c.read bs = .ok (a, mid)) (hd : d.read mid = .ok (b, rest)) : (c.pair d).read bs = .ok ((a, b), rest) := by
  unfold Codec.pair
  dsimp only
  rw [hc]
  simp only [bind, Except.bind, hd]
  rfl

theorem Keeps.pair {c : Codec α} {d : Codec β} {a : α} {b : β} (ha : c.Keeps a) (hb : d.Keeps b) :
    (c.pair d).Keeps (a, b) := by
  intro rest
  have parts : (c.pair d).write (a, b) ++ rest = c.write a ++ (d.write b ++ rest) := List.append_assoc _ _ _
  rw [parts]
  exact pair_read (ha _) (hb rest)

theorem keeps_unit (u : Unit) : unit.Keeps u :=
  fun _ => rfl

theorem keeps_word16 (n : UInt16) : word16.Keeps n := by
  intro rest
  have hn : n.toNat < 256 ^ 2 := by have := n.toNat_lt; omega
  have hr : n.toNat.toUInt16 = n := UInt16.ofNat_toNat
  simp only [word16, readWord_littleEndian hn, Except.map, hr]

theorem keeps_word64 (n : UInt64) : word64.Keeps n := by
  intro rest
  have hn : n.toNat < 256 ^ 8 := by have := n.toNat_lt; omega
  have hr : n.toNat.toUInt64 = n := UInt64.ofNat_toNat
  simp only [word64, readWord_littleEndian hn, Except.map, hr]

theorem keeps_flag (b : Bool) : flag.Keeps b := by
  intro rest
  cases b <;> rfl

theorem keeps_string {s : String} (h : Fits s) : string.Keeps s := by
  intro rest
  unfold string
  dsimp only
  rw [List.append_assoc, readWord_littleEndian (by unfold Fits at h; omega)]
  simp only [bind, Except.bind, takeBytes_append, Utf8.decode_encode, String.ofList_toList]

theorem keeps_inl {c : Codec α} (d : Codec β) {a : α} (h : c.Keeps a) : (c.either d).Keeps (.inl a) := by
  intro rest
  have ht : readWord 4 (littleEndian 4 0 ++ (c.write a ++ rest)) = .ok (0, c.write a ++ rest) :=
    readWord_littleEndian (by omega) _
  simp only [either, List.append_assoc, ht, bind, Except.bind, if_true, h rest]
  rfl

theorem read_inr (c : Codec α) (d : Codec β) (b : β) (rest : List UInt8) :
    (c.either d).read ((c.either d).write (.inr b) ++ rest) =
      (d.read (d.write b ++ rest)).map fun (b, rest) => (.inr b, rest) := by
  have ht : readWord 4 (littleEndian 4 1 ++ (d.write b ++ rest)) = .ok (1, d.write b ++ rest) :=
    readWord_littleEndian (by omega) _
  simp only [either, List.append_assoc, ht, bind, Except.bind, if_neg Nat.one_ne_zero, if_true]
  cases d.read (d.write b ++ rest) <;> rfl

theorem keeps_inr (c : Codec α) {d : Codec β} {b : β} (h : d.Keeps b) : (c.either d).Keeps (.inr b) := by
  intro rest
  rw [read_inr, h rest]
  rfl

end Codec

end Wire

open Wire

theorem NodeId.keeps_codec {n : NodeId} (h : Fits n.text) : NodeId.codec.Keeps n :=
  (Codec.keeps_string h).imap rfl

theorem WorkId.keeps_codec {n : WorkId} (h : Fits n.text) : WorkId.codec.Keeps n :=
  (Codec.keeps_string h).imap rfl

theorem Reply.keeps_codec (r : Reply) : Reply.codec.Keeps r := by
  unfold Reply.codec
  cases r with
  | done =>
    refine Codec.Keeps.imap ?_ ?_
    · exact Codec.keeps_inl _ (Codec.keeps_unit ())
    · rfl
  | value n =>
    refine Codec.Keeps.imap ?_ ?_
    · exact Codec.keeps_inr _ (Codec.keeps_word64 n)
    · rfl

theorem ReplyResult.keeps_ok (r : Reply) : ReplyResult.codec.Keeps (.ok r) := by
  unfold ReplyResult.codec
  refine Codec.Keeps.imap ?_ ?_
  · exact Codec.keeps_inl _ (Reply.keeps_codec r)
  · rfl

theorem ReplyResult.keeps_error {text : String} (h : Fits text) : ReplyResult.codec.Keeps (.error text) := by
  unfold ReplyResult.codec
  refine Codec.Keeps.imap ?_ ?_
  · exact Codec.keeps_inr _ (Codec.keeps_string h)
  · rfl

/-- However long its text, an error is not read as anything else. -/
theorem ReplyResult.decode_error (text : String) (r : Reply) :
    ReplyResult.codec.decode (ReplyResult.codec.write (.error text)) ≠ .ok (.ok r) := by
  have read := Codec.read_inr Reply.codec .string text []
  rw [List.append_nil, List.append_nil] at read
  unfold ReplyResult.codec Codec.decode Codec.imap
  dsimp only
  rw [read]
  cases Codec.string.read (Codec.string.write text) with
  | error f => simp [Except.map]
  | ok p => simp [Except.map]

namespace Operation

theorem ofId_id (op : Operation) : ofId op.id = .ok op := by
  cases op with
  | delta c => cases c <;> rfl
  | _ => rfl

end Operation

namespace Request

variable {α : Type} {address : Codec α}

/-- What is read under the number of an operation is a request of that operation. -/
theorem operation_of_ofBody {op : Operation} {body : List UInt8} {r : Request α}
    (h : ofBody address body op = .ok r) : r.operation = op := by
  have mapped : ∀ {β : Type} {e : Except Fault β} {f : β → Request α}, e.map f = .ok r → ∃ b, f b = r := by
    intro β e f he
    cases e with
    | error _ => cases he
    | ok b => exact ⟨b, Except.ok.inj he⟩
  cases op with
  | ping => cases h; rfl
  | getShortRunningFree => cases h; rfl
  | getLongRunningFree => cases h; rfl
  | _ => obtain ⟨b, rfl⟩ := mapped h; rfl

theorem decode_id (op : Operation) (body : List UInt8) :
    decode address op.id body =
      match ofBody address body op with
      | .ok r => .ok r
      | .error f => .error (.codec f) := by
  unfold decode
  rw [Operation.ofId_id]
  rfl

theorem operation_of_decode {op : Operation} {body : List UInt8} {r : Request α}
    (h : decode address op.id body = .ok r) : r.operation = op := by
  rw [decode_id] at h
  split at h
  next hb => cases h; exact operation_of_ofBody hb
  next => cases h

theorem decode_delta {origin : NodeId} (h : Fits origin.text) (c : Counter) :
    decode address (encode address (.delta origin c)).1 (encode address (.delta origin c)).2 =
      .ok (.delta origin c) := by
  have hb : ofBody address (NodeId.codec.write origin) (.delta c) = .ok (.delta origin c) := by
    rw [ofBody, (NodeId.keeps_codec h).decode]
    rfl
  have hd : decode address (Operation.delta c).id (NodeId.codec.write origin) = _ := decode_id _ _
  rw [hb] at hd
  exact hd

/-- A request comes back if its operation reads its arguments back. -/
theorem decode_encode {r : Request α} (h : ofBody address (r.body address) r.operation = .ok r) :
    decode address (r.encode address).1 (r.encode address).2 = .ok r := by
  have hd : decode address r.operation.id (r.body address) = _ := decode_id _ _
  rw [h] at hd
  exact hd

theorem decode_join {n : NodeId} {a : String} (hn : Fits n.text) (ha : Fits a) :
    decode .string ((join n a : Request String).encode .string).1 ((join n a).encode .string).2 = .ok (join n a) := by
  have hb : ofBody .string ((NodeId.codec.pair .string).write (n, a)) .join = .ok (.join n a) := by
    rw [ofBody, ((NodeId.keeps_codec hn).pair (Wire.Codec.keeps_string ha)).decode]
    rfl
  exact decode_encode (r := .join n a) hb

theorem decode_leave {n : NodeId} (hn : Fits n.text) :
    decode address ((leave n : Request α).encode address).1 ((leave n).encode address).2 = .ok (leave n) := by
  have hb : ofBody address (NodeId.codec.write n) .leave = .ok (.leave n) := by
    rw [ofBody, (NodeId.keeps_codec hn).decode]
    rfl
  exact decode_encode (r := .leave n) hb

end Request

end Workshare
