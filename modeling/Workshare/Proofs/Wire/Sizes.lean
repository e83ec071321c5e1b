import Mathlib.Algebra.Ring.Nat
import Workshare.Net.Frame
import Workshare.Proofs.Text.Lengths
import Workshare.Proofs.Wire.Gossip

namespace Workshare

open Wire

namespace Wire.Codec

variable {α β : Type}

@[simp] theorem length_string (s : String) : (Codec.string.write s).length = 8 + Utf8.size s := by
  show (littleEndian 8 _ ++ Utf8.encode s.toList).length = _
  rw [List.length_append, length_littleEndian]
  rfl

@[simp] theorem length_bytes (bs : List UInt8) : (Codec.bytes.write bs).length = 8 + bs.length := by
  show (littleEndian 8 _ ++ bs).length = _
  rw [List.length_append, length_littleEndian]

@[simp] theorem length_pair (c : Codec α) (d : Codec β) (p : α × β) :
    ((c.pair d).write p).length = (c.write p.1).length + (d.write p.2).length :=
  List.length_append

@[simp] theorem length_inl (c : Codec α) (d : Codec β) (a : α) :
    ((c.either d).write (.inl a)).length = 4 + (c.write a).length := by
  show (littleEndian 4 0 ++ c.write a).length = _
  rw [List.length_append, length_littleEndian]

@[simp] theorem length_inr (c : Codec α) (d : Codec β) (b : β) :
    ((c.either d).write (.inr b)).length = 4 + (d.write b).length := by
  show (littleEndian 4 1 ++ d.write b).length = _
  rw [List.length_append, length_littleEndian]

theorem length_list (c : Codec α) (as : List α) :
    (c.list.write as).length = 8 + (as.map fun a => (c.write a).length).sum := by
  show (littleEndian 8 as.length ++ as.flatMap c.write).length = _
  rw [List.length_append, length_littleEndian, List.length_flatMap]

theorem length_tagged {n : Nat} {body : Fin n → Type} (c : (i : Fin n) → Codec (body i)) (i : Fin n) (b : body i) :
    ((tagged n body c).write ⟨i, b⟩).length = 4 + ((c i).write b).length := by
  show (littleEndian 4 _ ++ (c i).write b).length = _
  rw [List.length_append, length_littleEndian]

end Wire.Codec

namespace SocketAddress

def size : SocketAddress → Nat
  | .v4 _ _ => 10
  | .v6 _ _ _ _ => 22

theorem size_bounds (a : SocketAddress) : 10 ≤ a.size ∧ a.size ≤ 22 := by
  cases a with
  | v4 ip port => exact ⟨Nat.le_refl 10, Nat.le_add_right 10 12⟩
  | v6 ip port flow scope => exact ⟨Nat.le_add_right 10 12, Nat.le_refl 22⟩

theorem length_codec (a : SocketAddress) : (codec.write a).length = a.size := by
  have digits (count n : Nat) : ((bigEndian count).write n).length = count := by
    show ((pieces 8 count n).map _).length = _
    rw [List.length_map, length_pieces]
  cases a with
  | v4 ip port =>
    show (((bigEndian 4).pair .word16).either ((bigEndian 16).pair .word16) |>.write (.inl (ip.toNat, port))).length = _
    rw [Codec.length_inl, Codec.length_pair, digits]
    rfl
  | v6 ip port flow scope =>
    show (((bigEndian 4).pair .word16).either ((bigEndian 16).pair .word16) |>.write (.inr (ip.toNat, port))).length = _
    rw [Codec.length_inr, Codec.length_pair, digits]
    rfl

end SocketAddress

namespace Member

def size (m : Member) : Nat :=
  20 + Utf8.size m.id.text + m.gossipAddr.size + m.rpcAddr.size

theorem length_codec (m : Member) : (codec.write m).length = m.size := by
  have state : (MemberState.codec.write m.state).length = 4 := by cases m.state <;> rfl
  show ((NodeId.codec.pair (SocketAddress.codec.pair (SocketAddress.codec.pair
    (MemberState.codec.pair .word64)))).write (m.id, m.gossipAddr, m.rpcAddr, m.state, m.incarnation)).length = _
  have word : (Codec.word64.write m.incarnation).length = 8 := length_littleEndian 8 _
  simp only [Codec.length_pair, NodeId.length_write, SocketAddress.length_codec, state, word]
  unfold size Utf8.size
  omega

end Member

theorem GossipMessage.length_ack (sender : NodeId) (i : UInt64) (ms : List Member) :
    (codec.write (.ack sender i ms)).length = 28 + Utf8.size sender.text + (ms.map (·.size)).sum := by
  have members : (ms.map fun m => (Member.codec.write m).length) = ms.map (·.size) :=
    List.map_congr_left fun m _ => m.length_codec
  refine (Codec.length_tagged bodyCodec 1 (sender, i, ms)).trans ?_
  show 4 + ((NodeId.codec.pair (Codec.word64.pair Member.codec.list)).write (sender, i, ms)).length = _
  have word : (Codec.word64.write i).length = 8 := length_littleEndian 8 _
  rw [Codec.length_pair, Codec.length_pair, NodeId.length_write, word, Codec.length_list, members]
  unfold Utf8.size
  dsimp only
  omega

theorem Work.length_codec (w : Work) : (codec.write w).length =
    26 + Utf8.size w.id.text + Utf8.size w.handler + Utf8.size w.payload.text := by
  show ((WorkId.codec.pair (Codec.string.pair (Json.Value.codec.pair (Codec.flag.pair .flag)))).write
    (w.id, w.handler, w.payload, w.distributable, w.longRunning)).length = _
  have id : (WorkId.codec.write w.id).length = 8 + Utf8.size w.id.text := Codec.length_string _
  have payload : (Json.Value.codec.write w.payload).length = 8 + Utf8.size w.payload.text := Codec.length_string _
  simp only [Codec.length_pair, Codec.length_string, id, payload]
  show _ + (_ + (_ + (1 + 1))) = _
  omega

namespace ReplyResult

def size : ReplyResult → Nat
  | .ok .done => 8
  | .ok (.value _) => 16
  | .error text => 12 + Utf8.size text

theorem length_codec (r : ReplyResult) : (codec.write r).length = r.size := by
  cases r with
  | error text =>
    show ((Reply.codec.either .string).write (.inr text)).length = _
    rw [Codec.length_inr, Codec.length_string]
    exact (Nat.add_assoc 4 8 _).symm
  | ok r => cases r <;> rfl

end ReplyResult

def FrameResult.size : FrameResult → Nat
  | .ok bytes => bytes.length
  | .error text => Utf8.size text

theorem Frame.length_reply (id : UInt64) (r : FrameResult) : (codec.write (.reply id r)).length =
    24 + FrameResult.size r := by
  show (((Codec.word64.pair (Codec.word16.pair (Codec.bytes.pair .flag))).either (Codec.word64.pair resultCodec)).write
    (.inr (id, r))).length = _
  have word : (Codec.word64.write id).length = 8 := length_littleEndian 8 _
  have result : (resultCodec.write r).length = 12 + FrameResult.size r := by
    cases r with
    | ok bytes =>
      show ((Codec.bytes.either .string).write (.inl bytes)).length = _
      rw [Codec.length_inl, Codec.length_bytes]
      exact (Nat.add_assoc 4 8 _).symm
    | error text =>
      show ((Codec.bytes.either .string).write (.inr text)).length = _
      rw [Codec.length_inr, Codec.length_string]
      exact (Nat.add_assoc 4 8 _).symm
  rw [Codec.length_inr, Codec.length_pair, word, result]
  omega

end Workshare
