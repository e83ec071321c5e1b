import Mathlib.Data.List.Induction
import Workshare.Proofs.Wire.Exact

namespace Workshare.SocketAddress

open Wire

/-- What of an address is sent: an IPv6 address goes without flow information and scope. -/
def sent : SocketAddress → SocketAddress
  | .v4 ip port => .v4 ip port
  | .v6 ip port _ _ => .v6 ip port 0 0

theorem length_pieces (bits count n : Nat) : (pieces bits count n).length = count := by
  unfold pieces
  rw [List.length_map, List.length_range]

theorem pieces_lt {bits count n p : Nat} (h : p ∈ pieces bits count n) : p < 2 ^ bits := by
  obtain ⟨i, _, rfl⟩ := List.mem_map.mp h
  rw [Nat.one_shiftLeft]
  exact Nat.mod_lt _ (Nat.two_pow_pos bits)

theorem pieces_succ (bits count n : Nat) :
    pieces bits (count + 1) n = pieces bits count (n >>> bits) ++ [n % 2 ^ bits] := by
  unfold pieces
  rw [List.range_succ, List.map_append, List.map_singleton]
  congr 1
  · refine List.map_congr_left fun i hi => ?_
    have below := List.mem_range.mp hi
    have shift : bits * (count + 1 - 1 - i) = bits + bits * (count - 1 - i) := by
      obtain ⟨k, rfl⟩ : ∃ k, count = i + 1 + k := ⟨count - (i + 1), by omega⟩
      have h₁ : i + 1 + k + 1 - 1 - i = k + 1 := by omega
      have h₂ : i + 1 + k - 1 - i = k := by omega
      rw [h₁, h₂, Nat.mul_add, Nat.mul_one, Nat.add_comm]
    rw [shift, Nat.shiftRight_add]
  · have last : bits * (count + 1 - 1 - count) = 0 := by
      have : count + 1 - 1 - count = 0 := by omega
      rw [this, Nat.mul_zero]
    rw [last, Nat.shiftRight_zero, Nat.one_shiftLeft]

theorem joinPieces_concat (bits : Nat) (ps : List Nat) (p : Nat) :
    joinPieces bits (ps ++ [p]) = joinPieces bits ps <<< bits + p := by
  unfold joinPieces
  rw [List.foldl_append]
  rfl

theorem joinPieces_pieces (bits count n : Nat) : joinPieces bits (pieces bits count n) = n % 2 ^ (bits * count) := by
  induction count generalizing n with
  | zero => simp [pieces, joinPieces, Nat.mod_one]
  | succ count ih =>
    rw [pieces_succ, joinPieces_concat, ih, Nat.shiftLeft_eq, Nat.shiftRight_eq_div_pow, Nat.mul_succ, Nat.pow_add,
      Nat.mul_comm (2 ^ (bits * count)), Nat.mod_mul, Nat.mul_comm, Nat.add_comm]

theorem joinPieces_lt {bits : Nat} {ps : List Nat} (h : ∀ p ∈ ps, p < 2 ^ bits) :
    joinPieces bits ps < 2 ^ (bits * ps.length) := by
  induction ps using List.reverseRecOn with
  | nil => simp [joinPieces]
  | append_singleton ps p ih =>
    have last := h p (by simp)
    have before := ih fun q hq => h q (by simp [hq])
    rw [joinPieces_concat, Nat.shiftLeft_eq, List.length_append, List.length_singleton, Nat.mul_add, Nat.mul_one,
      Nat.pow_add]
    calc joinPieces bits ps * 2 ^ bits + p < joinPieces bits ps * 2 ^ bits + 2 ^ bits := by omega
      _ = (joinPieces bits ps + 1) * 2 ^ bits := by rw [Nat.add_mul, Nat.one_mul]
      _ ≤ 2 ^ (bits * ps.length) * 2 ^ bits := Nat.mul_le_mul_right _ before

theorem pieces_joinPieces {bits : Nat} {ps : List Nat} (h : ∀ p ∈ ps, p < 2 ^ bits) :
    pieces bits ps.length (joinPieces bits ps) = ps := by
  induction ps using List.reverseRecOn with
  | nil => rfl
  | append_singleton ps p ih =>
    have last := h p (by simp)
    have high : (joinPieces bits ps * 2 ^ bits + p) / 2 ^ bits = joinPieces bits ps := by
      rw [Nat.mul_comm, Nat.mul_add_div (Nat.two_pow_pos bits), Nat.div_eq_of_lt last, Nat.add_zero]
    have low : (joinPieces bits ps * 2 ^ bits + p) % 2 ^ bits = p := by
      rw [Nat.mul_comm, Nat.mul_add_mod, Nat.mod_eq_of_lt last]
    rw [joinPieces_concat, Nat.shiftLeft_eq, List.length_append, List.length_singleton, pieces_succ,
      Nat.shiftRight_eq_div_pow, high, low, ih fun q hq => h q (by simp [hq])]

theorem bytes_lt (w : List UInt8) : ∀ p ∈ w.map (·.toNat), p < 2 ^ 8 := by
  intro p hp
  obtain ⟨b, _, rfl⟩ := List.mem_map.mp hp
  exact b.toNat_lt

theorem keeps_bigEndian {count n : Nat} (h : n < 2 ^ (8 * count)) : (bigEndian count).Keeps n := by
  intro rest
  have len : ((pieces 8 count n).map (·.toUInt8)).length = count := by rw [List.length_map, length_pieces]
  have back : ((pieces 8 count n).map (·.toUInt8)).map (·.toNat) = pieces 8 count n := by
    rw [List.map_map]
    conv => rhs; rw [← List.map_id (pieces 8 count n)]
    exact List.map_congr_left fun p hp => Utf8.toNat_toUInt8 (pieces_lt hp)
  have taken := takeBytes_append .cutShort ((pieces 8 count n).map (·.toUInt8)) rest
  rw [len] at taken
  unfold bigEndian
  dsimp only
  rw [taken]
  simp only [Except.map, back, joinPieces_pieces, Nat.mod_eq_of_lt h]

theorem read_bigEndian {count n : Nat} {bs rest : List UInt8} (h : (bigEndian count).read bs = .ok (n, rest)) :
    bs = (bigEndian count).write n ++ rest ∧ n < 2 ^ (8 * count) := by
  unfold bigEndian at h ⊢
  dsimp only at h ⊢
  obtain ⟨p, taken, value⟩ := Except.exists_of_map h
  cases value
  obtain ⟨parts, len⟩ := takeBytes_ok taken
  subst len
  have small := joinPieces_lt (bytes_lt p.1)
  have back := pieces_joinPieces (bytes_lt p.1)
  have bytes : (p.1.map (·.toNat)).map (·.toUInt8) = p.1 := by
    rw [List.map_map]
    conv => rhs; rw [← List.map_id p.1]
    exact List.map_congr_left fun b _ => UInt8.ofNat_toNat
  rw [List.length_map] at small back
  rw [back, bytes]
  exact ⟨parts, small⟩

theorem cuts_bigEndian (count n : Nat) : (bigEndian count).Cuts n := by
  intro front back h hb
  have len := congrArg List.length h
  have written : ((bigEndian count).write n).length = count := by
    show ((pieces 8 count n).map _).length = count
    rw [List.length_map, length_pieces]
  rw [written, List.length_append] at len
  have some := List.length_pos_iff.mpr hb
  refine ⟨.cutShort, .inl rfl, ?_⟩
  show (takeBytes .cutShort count front).map _ = _
  rw [takeBytes_cut _ (by omega)]
  rfl

theorem exact_codec : codec.Exact := by
  have v4 : ((bigEndian 4).pair .word16).Exact := Codec.Exact.pair (fun _ _ _ h => (read_bigEndian h).1) Codec.exact_word16
  have v6 : ((bigEndian 16).pair .word16).Exact := Codec.Exact.pair (fun _ _ _ h => (read_bigEndian h).1) Codec.exact_word16
  refine Codec.Exact.imap (v4.either v6) ?_
  intro bs rest a h
  obtain ⟨mid, ⟨⟨ip, port⟩, rfl, _, read⟩ | ⟨⟨ip, port⟩, rfl, _, read⟩⟩ := Codec.read_either h
  · obtain ⟨_, first, _⟩ := Codec.read_pair read
    have small : ip.toUInt32.toNat = ip := UInt32.toNat_ofNat_of_lt (read_bigEndian first).2
    dsimp only
    rw [small]
  · obtain ⟨_, first, _⟩ := Codec.read_pair read
    have small : (BitVec.ofNat 128 ip).toNat = ip := Nat.mod_eq_of_lt (read_bigEndian first).2
    dsimp only
    rw [small]

theorem read_codec (a : SocketAddress) (rest : List UInt8) : codec.read (codec.write a ++ rest) = .ok (a.sent, rest) := by
  unfold codec Codec.imap
  cases a with
  | v4 ip port =>
    have small : ip.toNat < 2 ^ (8 * 4) := by have := ip.toNat_lt; omega
    have back : ip.toNat.toUInt32 = ip := UInt32.ofNat_toNat
    have kept := Codec.keeps_inl ((bigEndian 16).pair .word16)
      ((keeps_bigEndian small).pair (Codec.keeps_word16 port)) rest
    dsimp only
    rw [kept]
    simp only [Except.map, back, sent]
  | v6 ip port flow scope =>
    have small : ip.toNat < 2 ^ (8 * 16) := ip.isLt
    have back : BitVec.ofNat 128 ip.toNat = ip := by rw [BitVec.ofNat_toNat, BitVec.setWidth_eq]
    have kept := Codec.keeps_inr ((bigEndian 4).pair .word16)
      ((keeps_bigEndian small).pair (Codec.keeps_word16 port)) rest
    dsimp only
    rw [kept]
    simp only [Except.map, back, sent]

theorem cuts_codec (a : SocketAddress) : codec.Cuts a := by
  cases a with
  | v4 ip port =>
    have small : ip.toNat < 2 ^ (8 * 4) := by have := ip.toNat_lt; omega
    refine Codec.Cuts.imap ?_
    exact Codec.cuts_inl _ (Codec.Cuts.pair (keeps_bigEndian small) (cuts_bigEndian 4 _) (Codec.cuts_word16 port))
  | v6 ip port flow scope =>
    refine Codec.Cuts.imap ?_
    exact Codec.cuts_inr _ (Codec.Cuts.pair (keeps_bigEndian ip.isLt) (cuts_bigEndian 16 _) (Codec.cuts_word16 port))

end Workshare.SocketAddress
