import Workshare.Net.Frame
import Workshare.Proofs.Wire.Gossip

namespace Workshare

namespace Wire.Codec

variable {α β : Type} {c : Codec α} {d : Codec β} {good : α → Prop} {fine : β → Prop}

/-- A value is read exactly where it was written, if it is a good one; what follows is left over. -/
def Format (c : Codec α) (good : α → Prop) : Prop :=
  ∀ bs rest a, c.read bs = .ok (a, rest) ↔ good a ∧ bs = c.write a ++ rest

/-- Decoding takes encodings of good values, with anything behind them, and nothing else. -/
structure IsExact (c : Codec α) (good : α → Prop) : Prop where
  back : ∀ a, good a → ∀ t, c.decode (c.write a ++ t) = .ok a
  only : ∀ b a, c.decode b = .ok a → good a ∧ c.write a <+: b
  /-- A strict prefix of an encoding is refused. -/
  whole : ∀ a, good a → ∀ front, front <+: c.write a → front ≠ c.write a → ∃ f, c.decode front = .error f

namespace Format

theorem keeps (h : c.Format good) {a : α} (ha : good a) : c.Keeps a :=
  fun rest => (h _ rest a).mpr ⟨ha, rfl⟩

theorem of (keeps : ∀ a, good a → c.Keeps a) (reads : ∀ bs rest a, c.read bs = .ok (a, rest) → good a ∧ bs = c.write a ++ rest) :
    c.Format good := by
  intro bs rest a
  refine ⟨reads bs rest a, ?_⟩
  rintro ⟨ha, rfl⟩
  exact keeps a ha rest

theorem congr (h : c.Format good) {good' : α → Prop} (same : ∀ a, good a ↔ good' a) : c.Format good' :=
  fun bs rest a => (h bs rest a).trans (and_congr_left' (same a))

theorem imap {f : α → β} {g : β → α} (h : c.Format good) (there : ∀ a, good a → fine (f a) ∧ g (f a) = a)
    (back : ∀ b, fine b → good (g b) ∧ f (g b) = b) : (c.imap f g).Format fine := by
  refine of (fun b hb => (h.keeps (back b hb).1).imap (back b hb).2) ?_
  intro bs rest b read
  obtain ⟨a, inner, rfl⟩ := read_imap read
  obtain ⟨ha, parts⟩ := (h bs rest a).mp inner
  refine ⟨(there a ha).1, ?_⟩
  show bs = c.write (g (f a)) ++ rest
  rw [(there a ha).2, parts]

theorem pair (hc : c.Format good) (hd : d.Format fine) : (c.pair d).Format fun p => good p.1 ∧ fine p.2 := by
  refine of (fun p hp => (hc.keeps hp.1).pair (hd.keeps hp.2)) ?_
  intro bs rest p read
  obtain ⟨mid, first, second⟩ := read_pair read
  obtain ⟨ha, parts⟩ := (hc _ _ _).mp first
  obtain ⟨hb, parts'⟩ := (hd _ _ _).mp second
  refine ⟨⟨ha, hb⟩, ?_⟩
  show bs = (c.write p.1 ++ d.write p.2) ++ rest
  rw [parts, parts', List.append_assoc]

theorem either (hc : c.Format good) (hd : d.Format fine) : (c.either d).Format (Sum.elim good fine) := by
  refine of ?_ ?_
  · intro v hv
    cases v with
    | inl a => exact keeps_inl d (hc.keeps hv)
    | inr b => exact keeps_inr c (hd.keeps hv)
  · intro bs rest v read
    obtain ⟨mid, ⟨a, rfl, parts, read⟩ | ⟨b, rfl, parts, read⟩⟩ := read_either read
    · obtain ⟨ha, parts'⟩ := (hc _ _ _).mp read
      refine ⟨ha, ?_⟩
      show bs = (littleEndian 4 0 ++ c.write a) ++ rest
      rw [parts, parts', List.append_assoc]
    · obtain ⟨hb, parts'⟩ := (hd _ _ _).mp read
      refine ⟨hb, ?_⟩
      show bs = (littleEndian 4 1 ++ d.write b) ++ rest
      rw [parts, parts', List.append_assoc]

theorem tagged {n : Nat} (few : n ≤ 256 ^ 4) {body : Fin n → Type} {cs : (i : Fin n) → Codec (body i)}
    {goods : (i : Fin n) → body i → Prop} (h : ∀ i, (cs i).Format (goods i)) :
    (Codec.tagged n body cs).Format fun v => goods v.1 v.2 := by
  refine of (fun v hv => returns_tagged few cs ((h v.1).keeps hv)) ?_
  intro bs rest v read
  obtain ⟨mid, parts, read⟩ := read_tagged read
  obtain ⟨hv, parts'⟩ := (h v.1 _ _ _).mp read
  refine ⟨hv, ?_⟩
  show bs = (littleEndian 4 v.1.val ++ (cs v.1).write v.2) ++ rest
  rw [parts, parts', List.append_assoc]

theorem readMany (h : c.Format good) {n : Nat} {bs rest : List UInt8} {as : List α}
    (read : c.readMany n bs = .ok (as, rest)) :
    as.length = n ∧ (∀ a ∈ as, good a) ∧ bs = as.flatMap c.write ++ rest := by
  induction n generalizing bs as with
  | zero =>
    cases read
    exact ⟨rfl, nofun, rfl⟩
  | succ n ih =>
    obtain ⟨⟨a, mid⟩, first, read⟩ := Except.exists_of_bind read
    obtain ⟨⟨as', rest'⟩, others, read⟩ := Except.exists_of_bind read
    cases read
    obtain ⟨ha, parts⟩ := (h _ _ _).mp first
    obtain ⟨len, has, parts'⟩ := ih others
    refine ⟨congrArg (· + 1) len, List.forall_mem_cons.mpr ⟨ha, has⟩, ?_⟩
    rw [List.flatMap_cons, List.append_assoc, ← parts', parts]

theorem list (h : c.Format good) : c.list.Format fun as => as.length < 256 ^ 8 ∧ ∀ a ∈ as, good a := by
  refine of ?_ ?_
  · rintro as ⟨len, has⟩
    have returns := returns_list (f := id) len fun a ha => h.keeps (has a ha)
    rwa [List.map_id] at returns
  · intro bs rest as read
    obtain ⟨⟨n, mid⟩, word, read⟩ := Except.exists_of_bind read
    obtain ⟨parts, small⟩ := readWord_ok word
    obtain ⟨rfl, has, parts'⟩ := h.readMany read
    refine ⟨⟨small, has⟩, ?_⟩
    show bs = (littleEndian 8 as.length ++ as.flatMap c.write) ++ rest
    rw [parts, parts', List.append_assoc]

/-- No encoding begins with another one: what was read of the shorter would be read of the longer. -/
theorem isExact (h : c.Format good) : c.IsExact good := by
  have back : ∀ a, good a → ∀ t, c.decode (c.write a ++ t) = .ok a := fun a ha => (h.keeps ha).decode_append
  have only : ∀ b a, c.decode b = .ok a → good a ∧ c.write a <+: b := by
    intro b a decoded
    obtain ⟨rest, read⟩ := read_of_decode decoded
    obtain ⟨ha, parts⟩ := (h _ _ _).mp read
    exact ⟨ha, rest, parts.symm⟩
  refine ⟨back, only, ?_⟩
  intro a ha front short cut
  cases read : c.decode front with
  | error f => exact ⟨f, rfl⟩
  | ok a' =>
    obtain ⟨_, shorter⟩ := only front a' read
    obtain ⟨t, parts⟩ := shorter.trans short
    have same : a' = a := by
      have first := back a' (only front a' read).1 t
      have second := back a ha []
      rw [List.append_nil, ← parts, first] at second
      exact Except.ok.inj second
    subst same
    exact absurd (short.eq_of_length_le shorter.length_le) cut

end Format

theorem format_unit : unit.Format fun _ => True :=
  .of (fun u _ => keeps_unit u) (fun _ _ _ read => by cases read; exact ⟨trivial, rfl⟩)

theorem format_word16 : word16.Format fun _ => True :=
  .of (fun n _ => keeps_word16 n) fun _ _ _ read => ⟨trivial, exact_word16 _ _ _ read⟩

theorem format_word64 : word64.Format fun _ => True :=
  .of (fun n _ => keeps_word64 n) fun _ _ _ read => ⟨trivial, exact_word64 _ _ _ read⟩

theorem format_flag : flag.Format fun _ => True :=
  .of (fun b _ => keeps_flag b) fun _ _ _ read => ⟨trivial, exact_flag _ _ _ read⟩

theorem format_string : string.Format Fits :=
  .of (fun _ => keeps_string) fun _ _ _ read => (read_string read).symm

theorem format_bytes : bytes.Format fun bs => bs.length < 256 ^ 8 := by
  refine .of ?_ ?_
  · intro bs len rest
    unfold bytes
    dsimp only
    rw [List.append_assoc, readWord_littleEndian len]
    exact takeBytes_append _ bs rest
  · intro bs rest w read
    obtain ⟨⟨n, mid⟩, word, read⟩ := Except.exists_of_bind read
    obtain ⟨parts, small⟩ := readWord_ok word
    obtain ⟨parts', rfl⟩ := takeBytes_ok read
    refine ⟨small, ?_⟩
    show bs = (littleEndian 8 w.length ++ w) ++ rest
    rw [parts, parts', List.append_assoc]

end Wire.Codec

open Wire

theorem NodeId.format_codec : NodeId.codec.Format fun n => Fits n.text :=
  Codec.format_string.imap (fun _ h => ⟨h, rfl⟩) fun _ h => ⟨h, rfl⟩

/-- An address is read without flow information and scope. -/
theorem SocketAddress.format_codec : SocketAddress.codec.Format fun a => a.sent = a := by
  refine .of ?_ ?_
  · intro a ha rest
    have read := SocketAddress.read_codec a rest
    rwa [ha] at read
  · intro bs rest a read
    have parts := SocketAddress.exact_codec bs rest a read
    have again := SocketAddress.read_codec a rest
    rw [← parts, read] at again
    exact ⟨(Prod.mk.inj (Except.ok.inj again)).1.symm, parts⟩

theorem MemberState.format_codec : MemberState.codec.Format fun _ => True := by
  have three : ∀ i : Fin 3, i = 0 ∨ i = 1 ∨ i = 2 := by decide
  have tags : (Codec.tagged 3 (fun _ => Unit) fun _ => .unit).Format fun _ => True :=
    @Codec.Format.tagged 3 (by omega) (fun _ => Unit) (fun _ => .unit) (fun _ _ => True) fun _ => Codec.format_unit
  refine tags.imap ?_ ?_
  · rintro ⟨i, u⟩ _
    rcases three i with rfl | rfl | rfl <;> exact ⟨trivial, rfl⟩
  · intro s _
    cases s <;> exact ⟨trivial, rfl⟩

/-- A member whose id can be written down, without anything in its addresses that is not sent. -/
def Member.Plain (m : Member) : Prop :=
  Fits m.id.text ∧ m.sent = m

theorem Member.sent_eq {m : Member} (gossip : m.gossipAddr.sent = m.gossipAddr) (rpc : m.rpcAddr.sent = m.rpcAddr) :
    m.sent = m := by
  unfold sent
  rw [gossip, rpc]

theorem Member.map_sent_eq_iff {ms : List Member} : ms.map (·.sent) = ms ↔ ∀ m ∈ ms, m.sent = m := by
  have same : ms.map (fun m => m) = ms := List.map_id' ms
  conv => lhs; rhs; rw [← same]
  exact List.map_inj_left

theorem Member.format_codec : Member.codec.Format Member.Plain := by
  refine (NodeId.format_codec.pair (SocketAddress.format_codec.pair (SocketAddress.format_codec.pair
    (MemberState.format_codec.pair Codec.format_word64)))).imap ?_ ?_
  · rintro ⟨id, gossip, rpc, state, incarnation⟩ ⟨fits, hg, hr, _⟩
    exact ⟨⟨fits, Member.sent_eq hg hr⟩, rfl⟩
  · intro m plain
    have hg := congrArg Member.gossipAddr plain.2
    have hr := congrArg Member.rpcAddr plain.2
    exact ⟨⟨plain.1, hg, hr, trivial, trivial⟩, rfl⟩

namespace GossipMessage

/-- The same of all that a message says. -/
def Plain (m : GossipMessage) : Prop :=
  m.Fits ∧ m.sent = m

/-- What stands behind each tag of a plain message. -/
def PlainBody (i : Fin 6) (b : Body i) : Prop :=
  (ofBody ⟨i, b⟩).Plain

theorem format_body (i : Fin 6) : (bodyCodec i).Format (PlainBody i) := by
  have six : ∀ i : Fin 6, i = 0 ∨ i = 1 ∨ i = 2 ∨ i = 3 ∨ i = 4 ∨ i = 5 := by decide
  have rumour : (NodeId.codec.pair .word64).Format fun p => Workshare.Fits p.1.text ∧ True :=
    NodeId.format_codec.pair Codec.format_word64
  rcases six i with rfl | rfl | rfl | rfl | rfl | rfl
  · refine (NodeId.format_codec.pair (SocketAddress.format_codec.pair Codec.format_word64)).congr ?_
    rintro ⟨sender, rpc, i⟩
    exact ⟨fun h => ⟨h.1, congrArg (GossipMessage.ping sender · i) h.2.1⟩, fun h => ⟨h.1, (ping.inj h.2).2.1, trivial⟩⟩
  · refine (NodeId.format_codec.pair (Codec.format_word64.pair Member.format_codec.list)).congr ?_
    rintro ⟨sender, i, ms⟩
    constructor
    · rintro ⟨fits, _, len, plain⟩
      exact ⟨⟨fits, len, fun m hm => (plain m hm).1⟩,
        congrArg (GossipMessage.ack sender i) (Member.map_sent_eq_iff.mpr fun m hm => (plain m hm).2)⟩
    · rintro ⟨⟨fits, len, each⟩, same⟩
      have same := Member.map_sent_eq_iff.mp (ack.inj same).2.2
      exact ⟨fits, trivial, len, fun m hm => ⟨each m hm, same m hm⟩⟩
  · refine Member.format_codec.congr fun m => ?_
    exact ⟨fun h => ⟨h.1, congrArg GossipMessage.join h.2⟩, fun h => ⟨h.1, join.inj h.2⟩⟩
  · exact NodeId.format_codec.congr fun n => ⟨fun h => ⟨h, rfl⟩, fun h => h.1⟩
  · exact rumour.congr fun p => ⟨fun h => ⟨h.1, rfl⟩, fun h => ⟨h.1, trivial⟩⟩
  · exact rumour.congr fun p => ⟨fun h => ⟨h.1, rfl⟩, fun h => ⟨h.1, trivial⟩⟩

theorem format_codec : codec.Format Plain := by
  refine (Codec.Format.tagged (by omega) format_body).imap ?_ ?_
  · exact fun v plain => ⟨plain, toBody_ofBody v⟩
  · intro m plain
    cases m <;> exact ⟨plain, rfl⟩

end GossipMessage

theorem Reply.format_codec : Reply.codec.Format fun _ => True := by
  refine (Codec.format_unit.either Codec.format_word64).imap ?_ ?_
  · rintro (u | n) _
    · exact ⟨trivial, rfl⟩
    · exact ⟨trivial, rfl⟩
  · intro r _
    cases r <;> exact ⟨trivial, rfl⟩

/-- An error has a text whose length can be written down. -/
def ReplyResult.Plain : ReplyResult → Prop
  | .ok _ => True
  | .error text => Fits text

theorem ReplyResult.format_codec : ReplyResult.codec.Format ReplyResult.Plain := by
  refine (Reply.format_codec.either Codec.format_string).imap ?_ ?_
  · rintro (r | text) fits
    · exact ⟨trivial, rfl⟩
    · exact ⟨fits, rfl⟩
  · intro r plain
    cases r <;> exact ⟨plain, rfl⟩

/-- Bytes or a text whose length can be written down. -/
def FrameResult.Plain : FrameResult → Prop
  | .ok bytes => bytes.length < 256 ^ 8
  | .error text => Fits text

theorem Frame.format_resultCodec : Frame.resultCodec.Format FrameResult.Plain := by
  refine (Codec.format_bytes.either Codec.format_string).imap ?_ ?_
  · rintro (bytes | text) fits
    · exact ⟨fits, rfl⟩
    · exact ⟨fits, rfl⟩
  · intro r plain
    cases r <;> exact ⟨plain, rfl⟩

def Frame.Plain : Frame → Prop
  | .request _ _ body _ => body.length < 256 ^ 8
  | .reply _ result => FrameResult.Plain result

theorem Frame.format_codec : Frame.codec.Format Frame.Plain := by
  refine ((Codec.format_word64.pair (Codec.format_word16.pair (Codec.format_bytes.pair Codec.format_flag))).either
    (Codec.format_word64.pair Frame.format_resultCodec)).imap ?_ ?_
  · rintro (⟨id, op, body, expectsReply⟩ | ⟨id, result⟩) plain
    · exact ⟨plain.2.2.1, rfl⟩
    · exact ⟨plain.2, rfl⟩
  · intro f plain
    cases f with
    | request id op body expectsReply => exact ⟨⟨trivial, trivial, plain, trivial⟩, rfl⟩
    | reply id result => exact ⟨⟨trivial, plain⟩, rfl⟩

theorem formats_exact : GossipMessage.codec.IsExact GossipMessage.Plain ∧
    ReplyResult.codec.IsExact ReplyResult.Plain ∧ Frame.codec.IsExact Frame.Plain :=
  ⟨GossipMessage.format_codec.isExact, ReplyResult.format_codec.isExact, Frame.format_codec.isExact⟩

theorem formats_exact_nested :
    let member : Member := ⟨⟨"n1"⟩, .v6 1 7946 0 0, .v4 2130706433 7947, .alive, 3⟩
    let gossip := GossipMessage.codec.write (.ack ⟨"n0"⟩ 1 [member, member])
    let inner := ReplyResult.codec.write (.error "no handler")
    let datagram := Frame.codec.write (.reply 7 (.ok inner))
    GossipMessage.codec.decode (gossip ++ [9]) = .ok (.ack ⟨"n0"⟩ 1 [member, member]) ∧
      Frame.codec.decode (datagram ++ [9]) = .ok (.reply 7 (.ok inner)) ∧
      ReplyResult.codec.decode (inner ++ []) = .ok (.error "no handler") ∧
      ∃ f, Frame.codec.decode datagram.dropLast = .error f := by
  intro member gossip inner datagram
  obtain ⟨messages, replies, frames⟩ := formats_exact
  have short : ReplyResult.Plain (.error "no handler") := by
    show Fits "no handler"
    decide
  have fits : GossipMessage.Fits (.ack ⟨"n0"⟩ 1 [member, member]) := by
    show Fits "n0" ∧ [member, member].length < 256 ^ 8 ∧ ∀ m ∈ [member, member], Fits m.id.text
    decide
  have frame : Frame.Plain (.reply 7 (.ok inner)) := by
    show inner.length < 256 ^ 8
    decide
  refine ⟨messages.back _ ⟨fits, rfl⟩ [9], frames.back _ frame [9], replies.back _ short [],
    frames.whole _ frame _ (List.dropLast_prefix datagram) ?_⟩
  decide

end Workshare
