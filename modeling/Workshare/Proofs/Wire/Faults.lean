import Workshare.Proofs.Text.Lengths
import Workshare.Proofs.Wire.Exact

namespace Workshare

namespace Utf8

/-- A bad sequence that begins no later than here. -/
def Fault.Within (k : Nat) (f : Fault) : Prop :=
  f.index ≤ k ∧ ∀ n, f.length = some n → n ≤ 3

theorem Fault.Within.mono {j k : Nat} {f : Fault} (h : f.Within j) (le : j ≤ k) : f.Within k :=
  ⟨Nat.le_trans h.1 le, h.2⟩

theorem within_decodeFrom {i k : Nat} {bs : List UInt8} {f : Fault} (h : decodeFrom i bs = .error f)
    (le : i + bs.length ≤ k) : f.Within k := by
  have bad {j n : Nat} (there : j ≤ k) (short : n ≤ 3) : Fault.Within k ⟨j, some n⟩ :=
    ⟨there, fun m hm => Option.some.inj hm ▸ short⟩
  have cut {j : Nat} (there : j ≤ k) : Fault.Within k ⟨j, none⟩ := ⟨there, fun m hm => by cases hm⟩
  have later {c : Char} {e : Except Fault (List Char)} (he : e.map (c :: ·) = .error f) : e = .error f := by
    cases e with
    | error g => exact he
    | ok cs => cases he
  fun_induction decodeFrom i bs with
  | case1 => cases h
  | case2 | case5 | case8 | case11 => cases h; exact bad (by omega) (by omega)
  | case4 | case7 | case10 => cases h; exact cut (by omega)
  | case3 _ _ _ _ ih => exact ih (later h) (by rw [List.length_cons] at le; omega)
  | case6 _ _ _ _ _ _ _ _ ih => exact ih (later h) (by simp only [List.length_cons] at le; omega)
  | case9 _ _ _ _ _ _ _ _ _ _ _ ih => exact ih (later h) (by simp only [List.length_cons] at le; omega)
  | case12 _ _ _ _ _ _ _ _ _ _ _ _ _ _ _ ih => exact ih (later h) (by simp only [List.length_cons] at le; omega)

end Utf8

namespace Wire

/-- A fault in an input of this length. -/
def Fault.Within (k : Nat) : Fault → Prop
  | .utf8 f => f.Within k
  | _ => True

theorem Fault.Within.mono {j k : Nat} {f : Fault} (h : f.Within j) (le : j ≤ k) : f.Within k := by
  cases f with
  | utf8 g => exact Utf8.Fault.Within.mono h le
  | _ => trivial

/-- The numbers in a message of a fault are small. -/
theorem Fault.Within.size_message {k : Nat} {f : Fault} (h : f.Within k) (small : k < 10 ^ 5) :
    Utf8.size (f.message.getD "") ≤ 110 := by
  cases f with
  | utf8 g =>
    obtain ⟨index, short⟩ := h
    have place : Utf8.size (toString g.index) ≤ 4 * 5 :=
      Utf8.size_toString_le (by decide) (Nat.lt_of_le_of_lt index small)
    show Utf8.size ("string is not valid utf8: " ++ g.message) ≤ 110
    rw [Utf8.size_append]
    have text : Utf8.size "string is not valid utf8: " = 26 := by decide
    unfold Utf8.Fault.message
    split
    next n hn =>
      have := short n hn
      have count : Utf8.size (toString n) ≤ 4 * 1 := Utf8.size_toString_le (by decide) (by omega)
      have front : Utf8.size "invalid utf-8 sequence of " = 26 := by decide
      have middle : Utf8.size " bytes from index " = 18 := by decide
      simp only [Utf8.size_append]
      omega
    next =>
      have front : Utf8.size "incomplete utf-8 byte sequence from index " = 42 := by decide
      rw [Utf8.size_append]
      omega
  | flag b =>
    have byte : Utf8.size (toString b.toNat) ≤ 4 * 3 := by
      have := b.toNat_lt
      exact Utf8.size_toString_le (by decide) (by omega)
    have text : Utf8.size "invalid u8 while decoding bool, expected 0 or 1, found " = 55 := by decide
    show Utf8.size (_ ++ _) ≤ 110
    rw [Utf8.size_append]
    omega
  | cutShort => decide
  | cutContents => decide
  | unknown => decide

namespace Codec

variable {α β : Type}

/-- A reader complains of nothing behind the end of its input. -/
structure Blames (c : Codec α) : Prop where
  rest : ∀ bs a rest, c.read bs = .ok (a, rest) → rest.length ≤ bs.length
  fault : ∀ bs f, c.read bs = .error f → f.Within bs.length

theorem Blames.decode {c : Codec α} (h : c.Blames) {bs : List UInt8} {f : Fault} (hf : c.decode bs = .error f) :
    f.Within bs.length :=
  h.fault bs f (Except.error_of_map hf)

theorem Blames.imap {c : Codec α} (h : c.Blames) (f : α → β) (g : β → α) : (c.imap f g).Blames := by
  refine ⟨fun bs b rest hb => ?_, fun bs e he => ?_⟩
  · obtain ⟨a, read, _⟩ := read_imap hb
    exact h.rest bs a rest read
  · exact h.fault bs e (Except.error_of_map he)

theorem Blames.pair {c : Codec α} {d : Codec β} (hc : c.Blames) (hd : d.Blames) : (c.pair d).Blames := by
  refine ⟨fun bs p rest h => ?_, fun bs e he => ?_⟩
  · obtain ⟨mid, first, second⟩ := read_pair h
    exact Nat.le_trans (hd.rest _ _ _ second) (hc.rest _ _ _ first)
  · rcases Except.error_of_bind he with cut | ⟨⟨a, mid⟩, first, he⟩
    · exact hc.fault bs e cut
    rcases Except.error_of_bind he with cut | ⟨q, _, he⟩
    · exact (hd.fault mid e cut).mono (hc.rest bs a mid first)
    · cases he

/-- A reader that is exact uses what it reads, so only its faults matter. -/
theorem Blames.of_exact {c : Codec α} (exact : c.Exact) (plain : ∀ bs f, c.read bs = .error f → f.Within bs.length) :
    c.Blames := by
  refine ⟨fun bs a rest h => ?_, plain⟩
  rw [exact bs rest a h, List.length_append]
  exact Nat.le_add_left _ _

theorem takeBytes_error {f g : Fault} {count : Nat} {bs : List UInt8} (h : takeBytes f count bs = .error g) : g = f := by
  unfold takeBytes at h
  split at h
  next => cases h
  next => cases h; rfl

theorem readWord_error {count : Nat} {bs : List UInt8} {f : Fault} (h : readWord count bs = .error f) : f = .cutShort := by
  unfold readWord at h
  cases ht : takeBytes .cutShort count bs with
  | ok p => rw [ht] at h; cases h
  | error g =>
    rw [ht] at h
    cases h
    exact takeBytes_error ht

theorem blames_word64 : word64.Blames := by
  refine .of_exact exact_word64 fun bs f h => ?_
  have h : (readWord 8 bs).map _ = .error f := h
  cases hr : readWord 8 bs with
  | ok p => rw [hr] at h; cases h
  | error g =>
    rw [hr] at h
    cases h
    rw [readWord_error hr]
    trivial

theorem blames_flag : flag.Blames := by
  refine .of_exact exact_flag fun bs f h => ?_
  unfold flag at h
  cases bs with
  | nil => cases h; trivial
  | cons b bs =>
    dsimp only at h
    split at h
    next => cases h
    next =>
      split at h
      next => cases h
      next => cases h; trivial

theorem blames_string : string.Blames := by
  refine .of_exact exact_string fun bs f h => ?_
  rcases Except.error_of_bind h with cut | ⟨⟨n, rest⟩, word, h⟩
  · rw [readWord_error cut]
    trivial
  rcases Except.error_of_bind h with cut | ⟨⟨text, rest'⟩, taken, h⟩
  · rw [takeBytes_error cut]
    trivial
  dsimp only at taken h
  split at h
  next => cases h
  next g hd =>
    cases h
    have contents := (takeBytes_ok taken).1
    have header := (readWord_ok word).1
    refine Utf8.within_decodeFrom hd ?_
    rw [header, contents, List.length_append, List.length_append]
    omega

end Codec

end Wire

open Wire

theorem Json.Value.blames_codec : Json.Value.codec.Blames := by
  refine ⟨fun bs v rest h => ?_, fun bs f h => ?_⟩
  · obtain ⟨⟨text, mid⟩, read, value⟩ := Except.exists_of_bind h
    dsimp only at value
    split at value
    next => cases value; exact Codec.blames_string.rest bs text _ read
    next => cases value
  · rcases Except.error_of_bind h with cut | ⟨⟨text, mid⟩, _, h⟩
    · exact Codec.blames_string.fault bs f cut
    dsimp only at h
    split at h
    next => cases h
    next => cases h; trivial

theorem Work.blames_codec : Work.codec.Blames := by
  unfold codec
  exact .imap (.pair (.imap Codec.blames_string _ _) (.pair Codec.blames_string
    (.pair Json.Value.blames_codec (.pair Codec.blames_flag Codec.blames_flag)))) _ _

namespace Request

theorem blames_ofBody {op : Operation} {body : List UInt8} {f : Fault}
    (h : ofBody .string body op = (.error f : Except Fault (Request String))) : f.Within body.length := by
  have node : NodeId.codec.Blames := .imap Codec.blames_string _ _
  have through {α β : Type} {c : Codec α} (blames : c.Blames) {g : α → β} (he : (c.decode body).map g = .error f) :
      f.Within body.length :=
    blames.decode (Except.error_of_map he)
  cases op with
  | join => exact through (.pair node Codec.blames_string) h
  | leave => exact through node h
  | doWork => exact through Work.blames_codec h
  | startWork => exact through Work.blames_codec h
  | scheduleWork => exact through Work.blames_codec h
  | updateShortRunningFree => exact through (.pair node Codec.blames_word64) h
  | updateLongRunningFree => exact through (.pair node Codec.blames_word64) h
  | delta c => exact through node h
  | ping => cases h
  | getShortRunningFree => cases h
  | getLongRunningFree => cases h

/-- The refusal of a request is short. -/
theorem size_decode_error {op : UInt16} {body : List UInt8} {e : ChannelError}
    (h : decode .string op body = (.error e : Except ChannelError (Request String))) (small : body.length < 10 ^ 5) :
    Utf8.size e.message ≤ 123 := by
  unfold decode at h
  rcases Except.error_of_bind h with unknown | ⟨o, _, h⟩
  · unfold Operation.ofId at unknown
    split at unknown
    next => cases unknown
    next =>
      cases unknown
      have id : Utf8.size (toString op.toNat) ≤ 4 * 5 := by
        have := op.toNat_lt
        exact Utf8.size_toString_le (by decide) (by omega)
      have text : Utf8.size "unknown operation id " = 21 := by decide
      show Utf8.size (_ ++ _) ≤ 123
      rw [Utf8.size_append]
      omega
  · split at h
    next => cases h
    next f hf =>
      cases h
      have fault := (blames_ofBody hf).size_message small
      have text : Utf8.size "codec error: " = 13 := by decide
      show Utf8.size ("codec error: " ++ f.message.getD "") ≤ 123
      rw [Utf8.size_append]
      omega

end Request

end Workshare
