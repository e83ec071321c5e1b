import Workshare.Gossip.Service
import Workshare.Proofs.Wire.Address

namespace Workshare

namespace Wire.Codec

variable {α β : Type}

/-- What is written of `a` is read as `b`, whatever follows. -/
def Returns (c : Codec α) (a b : α) : Prop :=
  ∀ rest, c.read (c.write a ++ rest) = .ok (b, rest)

theorem Returns.decode {c : Codec α} {a b : α} (h : c.Returns a b) : c.decode (c.write a) = .ok b := by
  have read := h []
  rw [List.append_nil] at read
  rw [Codec.decode, read]
  rfl

theorem Returns.imap {c : Codec α} {f : α → β} {g : β → α} {a : α} {b b' : β} (h : c.Returns (g b) a) (hf : f a = b') :
    (c.imap f g).Returns b b' := by
  intro rest
  show (c.read (c.write (g b) ++ rest)).map _ = _
  rw [h rest]
  simp only [Except.map, hf]

theorem Returns.pair {c : Codec α} {d : Codec β} {a a' : α} {b b' : β} (ha : c.Returns a a') (hb : d.Returns b b') :
    (c.pair d).Returns (a, b) (a', b') := by
  intro rest
  have parts : (c.pair d).write (a, b) ++ rest = c.write a ++ (d.write b ++ rest) := List.append_assoc _ _ _
  rw [parts]
  exact pair_read (ha _) (hb rest)

theorem returns_readMany {c : Codec α} {f : α → α} {as : List α} (h : ∀ a ∈ as, c.Returns a (f a)) (rest : List UInt8) :
    c.readMany as.length (as.flatMap c.write ++ rest) = .ok (as.map f, rest) := by
  induction as with
  | nil => rfl
  | cons a as ih =>
    have tail := ih fun b hb => h b (List.mem_cons_of_mem _ hb)
    rw [List.length_cons, readMany, List.flatMap_cons, List.append_assoc, h a List.mem_cons_self]
    simp only [bind, Except.bind, tail]
    rfl

theorem returns_list {c : Codec α} {f : α → α} {as : List α} (len : as.length < 256 ^ 8)
    (h : ∀ a ∈ as, c.Returns a (f a)) : c.list.Returns as (as.map f) := by
  intro rest
  unfold list
  dsimp only
  rw [List.append_assoc, readWord_littleEndian len]
  simp only [bind, Except.bind]
  exact returns_readMany h rest

theorem returns_tagged {n : Nat} (few : n ≤ 256 ^ 4) {body : Fin n → Type} (c : (i : Fin n) → Codec (body i)) {i : Fin n}
    {b b' : body i} (h : (c i).Returns b b') : (tagged n body c).Returns ⟨i, b⟩ ⟨i, b'⟩ := by
  intro rest
  unfold tagged
  dsimp only
  rw [List.append_assoc, readWord_littleEndian (Nat.lt_of_lt_of_le i.isLt few)]
  simp only [bind, Except.bind, i.isLt, dif_pos, Fin.eta, h rest]
  rfl

theorem length_write_le_flatMap (c : Codec α) {a : α} {as : List α} (h : a ∈ as) :
    (c.write a).length ≤ (as.flatMap c.write).length := by
  obtain ⟨front, back, rfl⟩ := List.append_of_mem h
  simp only [List.flatMap_append, List.flatMap_cons, List.length_append]
  omega

theorem length_le_flatMap (c : Codec α) {as : List α} (h : ∀ a ∈ as, 0 < (c.write a).length) :
    as.length ≤ (as.flatMap c.write).length := by
  induction as with
  | nil => exact Nat.zero_le _
  | cons a as ih =>
    have first := h a List.mem_cons_self
    have others := ih fun b hb => h b (List.mem_cons_of_mem _ hb)
    rw [List.flatMap_cons, List.length_append, List.length_cons]
    omega

end Wire.Codec

open Wire

theorem NodeId.length_write (n : NodeId) :
    (NodeId.codec.write n).length = 8 + (Utf8.encode n.text.toList).length := by
  show (littleEndian 8 _ ++ Utf8.encode n.text.toList).length = _
  rw [List.length_append, length_littleEndian]

theorem Member.length_write (m : Member) :
    8 + (Utf8.encode m.id.text.toList).length ≤ (Member.codec.write m).length := by
  show _ ≤ (NodeId.codec.write m.id ++ _).length
  rw [List.length_append, NodeId.length_write]
  omega

theorem NodeId.read_codec {n : NodeId} {bs rest : List UInt8} (h : NodeId.codec.read bs = .ok (n, rest)) :
    bs = NodeId.codec.write n ++ rest ∧ Fits n.text := by
  obtain ⟨text, read, rfl⟩ := Codec.read_imap h
  exact Codec.read_string read

def Member.sent (m : Member) : Member :=
  { m with gossipAddr := m.gossipAddr.sent, rpcAddr := m.rpcAddr.sent }

namespace GossipMessage

def sent : GossipMessage → GossipMessage
  | .ping sender rpc i => .ping sender rpc.sent i
  | .ack sender i ms => .ack sender i (ms.map (·.sent))
  | .join node => .join node.sent
  | m => m

end GossipMessage

theorem MemberState.returns_codec (s : MemberState) : MemberState.codec.Returns s s := by
  have kept (i : Fin 3) : (Codec.tagged 3 (fun _ => Unit) fun _ => .unit).Returns ⟨i, ()⟩ ⟨i, ()⟩ :=
    Codec.returns_tagged (by omega) (fun _ => .unit) (Codec.keeps_unit ())
  unfold codec
  cases s with
  | alive => exact Codec.Returns.imap (kept 0) rfl
  | suspect => exact Codec.Returns.imap (kept 1) rfl
  | dead => exact Codec.Returns.imap (kept 2) rfl

theorem Member.returns_codec {m : Member} (h : Fits m.id.text) : Member.codec.Returns m m.sent := by
  have fields := Codec.Returns.pair (NodeId.keeps_codec h) (Codec.Returns.pair (SocketAddress.read_codec m.gossipAddr)
    (Codec.Returns.pair (SocketAddress.read_codec m.rpcAddr)
      (Codec.Returns.pair (MemberState.returns_codec m.state) (Codec.keeps_word64 m.incarnation))))
  unfold codec
  exact Codec.Returns.imap fields rfl

namespace GossipMessage

/-- The texts and lists in a message are short enough for their lengths to be written down. -/
def Fits : GossipMessage → Prop
  | .ping sender _ _ => Workshare.Fits sender.text
  | .ack sender _ ms => Workshare.Fits sender.text ∧ ms.length < 256 ^ 8 ∧ ∀ m ∈ ms, Workshare.Fits m.id.text
  | .join node => Workshare.Fits node.id.text
  | .leave node => Workshare.Fits node.text
  | .suspect node _ => Workshare.Fits node.text
  | .alive node _ => Workshare.Fits node.text

theorem returns_codec {m : GossipMessage} (h : m.Fits) : codec.Returns m m.sent := by
  have kept (i : Fin 6) {b : Body i} (b' : Body i) (hb : (bodyCodec i).Returns b b') :
      (Codec.tagged 6 Body bodyCodec).Returns ⟨i, b⟩ ⟨i, b'⟩ := Codec.returns_tagged (by omega) bodyCodec hb
  unfold codec
  cases m with
  | ping sender rpc i =>
    refine Codec.Returns.imap (kept 0 (sender, rpc.sent, i) ?_) rfl
    exact Codec.Returns.pair (NodeId.keeps_codec h) (Codec.Returns.pair (SocketAddress.read_codec rpc)
      (Codec.keeps_word64 i))
  | ack sender i ms =>
    obtain ⟨hs, len, hms⟩ := h
    refine Codec.Returns.imap (kept 1 (sender, i, ms.map (·.sent)) ?_) rfl
    exact Codec.Returns.pair (NodeId.keeps_codec hs) (Codec.Returns.pair (Codec.keeps_word64 i)
      (Codec.returns_list len fun m hm => Member.returns_codec (hms m hm)))
  | join node => exact Codec.Returns.imap (kept 2 node.sent (Member.returns_codec h)) rfl
  | leave node => exact Codec.Returns.imap (kept 3 node (NodeId.keeps_codec h)) rfl
  | suspect node i =>
    exact Codec.Returns.imap
      (kept 4 (node, i) (Codec.Returns.pair (NodeId.keeps_codec h) (Codec.keeps_word64 i))) rfl
  | alive node i =>
    exact Codec.Returns.imap
      (kept 5 (node, i) (Codec.Returns.pair (NodeId.keeps_codec h) (Codec.keeps_word64 i))) rfl

/-- What is written is at least as long as each text in it and each list. -/
theorem fits_of_length {m : GossipMessage} (h : (codec.write m).length < 2 ^ 64) : m.Fits := by
  have text {n : NodeId} {front : List UInt8} (back : List UInt8)
      (parts : codec.write m = front ++ (NodeId.codec.write n ++ back)) : Workshare.Fits n.text := by
    have len := congrArg List.length parts
    rw [List.length_append, List.length_append, NodeId.length_write] at len
    unfold Workshare.Fits
    omega
  cases m with
  | ping sender rpc i => exact text _ rfl
  | ack sender i ms =>
    have len : (codec.write (.ack sender i ms)).length = 4 + ((NodeId.codec.write sender).length +
        (8 + (8 + (ms.flatMap Member.codec.write).length))) := by
      show (littleEndian 4 1 ++ (NodeId.codec.write sender ++ (littleEndian 8 i.toNat ++
        (littleEndian 8 ms.length ++ ms.flatMap Member.codec.write)))).length = _
      simp only [List.length_append, length_littleEndian]
    refine ⟨text _ rfl, ?_, fun m hm => ?_⟩
    · have some (m : Member) : 0 < (Member.codec.write m).length := by
        have := m.length_write
        omega
      have := Codec.length_le_flatMap Member.codec fun m (_ : m ∈ ms) => some m
      omega
    · have := Codec.length_write_le_flatMap Member.codec hm
      have := m.length_write
      unfold Workshare.Fits
      omega
  | join node => exact text _ rfl
  | leave node => exact text [] (by rw [List.append_nil]; rfl)
  | suspect node i => exact text _ rfl
  | alive node i => exact text _ rfl

/-- A message that can be sent at all comes back as it was sent. -/
theorem decode_write {m : GossipMessage} (h : (codec.write m).length < 2 ^ 64) :
    codec.decode (codec.write m) = .ok m.sent :=
  (returns_codec (fits_of_length h)).decode

theorem toBody_ofBody (v : (i : Fin 6) × Body i) : toBody (ofBody v) = v := by
  obtain ⟨i, b⟩ := v
  have six : ∀ i : Fin 6, i = 0 ∨ i = 1 ∨ i = 2 ∨ i = 3 ∨ i = 4 ∨ i = 5 := by decide
  rcases six i with rfl | rfl | rfl | rfl | rfl | rfl <;> rfl

/-- The bytes that are read as a suspicion are those that begin with it. -/
theorem decode_suspect {node : NodeId} {i : UInt64} {bs : List UInt8} :
    codec.decode bs = .ok (.suspect node i) ↔ Workshare.Fits node.text ∧ codec.write (.suspect node i) <+: bs := by
  constructor
  · intro h
    obtain ⟨rest, read⟩ := Codec.read_of_decode h
    obtain ⟨v, read, hv⟩ := Codec.read_imap read
    have four : v = ⟨4, (node, i)⟩ := by rw [← toBody_ofBody v, hv]; rfl
    subst four
    obtain ⟨mid, parts, read⟩ := Codec.read_tagged read
    obtain ⟨mid', named, counted⟩ := Codec.read_pair (c := NodeId.codec) (d := .word64) read
    obtain ⟨parts', fits⟩ := NodeId.read_codec named
    have parts'' := Codec.exact_word64 _ _ _ counted
    refine ⟨fits, rest, ?_⟩
    show (littleEndian 4 4 ++ (NodeId.codec.write node ++ Codec.word64.write i)) ++ rest = bs
    rw [parts, parts', parts'', List.append_assoc, List.append_assoc]
    rfl
  · rintro ⟨fits, rest, rfl⟩
    rw [Codec.decode, returns_codec (m := .suspect node i) fits rest]
    rfl

end GossipMessage

end Workshare
