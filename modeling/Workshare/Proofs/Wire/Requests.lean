import Workshare.Http.Interface
import Workshare.Proofs.Form.Documents
import Workshare.Proofs.Wire.Address
import Workshare.Proofs.Wire.Work

namespace Workshare

open Wire

/-- A work that was read from a document has a payload in normal form. -/
theorem Work.normal_of_readStart {fresh : WorkId} {text : String} {w : Work}
    (h : (Work.form fresh).readStart text = .ok w) : w.payload.Normal 0 := by
  obtain ⟨v, read, back⟩ := Except.exists_of_bind h
  exact (Work.normal_payload read (Json.Form.ofValue?_of_ofDocument back)).mono (Nat.zero_le 1)

/-- What the HTTP interface takes for a submission is a work that its body starts with. -/
theorem Http.Request.readStart_of_action {fresh : WorkId} {q : Http.Request} {mode : Mode} {w : Work}
    (h : q.action fresh = .submit mode w) : (Work.form fresh).readStart q.body = .ok w := by
  unfold Http.Request.action at h
  split at h
  next => cases h
  next =>
    split at h
    next =>
      unfold Http.readWork at h
      split at h
      next => split at h <;> cases h; assumption
      next => cases h
    next => cases h
  next =>
    split at h
    next => cases h
    next =>
      split at h
      next => cases h
      next => cases h
      next => cases h
      next => split at h <;> cases h
      next => cases h

theorem Http.Request.action_of_readStart {fresh : WorkId} {q : Http.Request} {mode : Mode} {w : Work}
    (path : Http.Resource.ofPath? (Http.pathOf q.target) = some (.work mode)) (method : q.method = "POST")
    (json : Http.isJson q.contentType = true) (read : (Work.form fresh).readStart q.body = .ok w) :
    q.action fresh = .submit mode w := by
  unfold Http.Request.action
  rw [path]
  dsimp only
  rw [if_pos method, Http.readWork, if_pos json, read]

namespace Request

variable {α β : Type} {address : Codec α}

def mapAddress (f : α → β) : Request α → Request β
  | .join node a => .join node (f a)
  | .leave node => .leave node
  | .ping => .ping
  | .doWork w => .doWork w
  | .startWork w => .startWork w
  | .scheduleWork w => .scheduleWork w
  | .getShortRunningFree => .getShortRunningFree
  | .getLongRunningFree => .getLongRunningFree
  | .updateShortRunningFree node free => .updateShortRunningFree node free
  | .updateLongRunningFree node free => .updateLongRunningFree node free
  | .delta origin c => .delta origin c

/-- Every text in a request can be sent, and its payload is portable. -/
def Sendable (fits : α → Prop) : Request α → Prop
  | .join node a => Fits node.text ∧ fits a
  | .leave node => Fits node.text
  | .ping => True
  | .doWork w => w.Portable
  | .startWork w => w.Portable
  | .scheduleWork w => w.Portable
  | .getShortRunningFree => True
  | .getLongRunningFree => True
  | .updateShortRunningFree node _ => Fits node.text
  | .updateLongRunningFree node _ => Fits node.text
  | .delta origin _ => Fits origin.text

theorem ofBody_append {f : α → α} {fits : α → Prop}
    (ha : ∀ a, fits a → ∀ rest, address.read (address.write a ++ rest) = .ok (f a, rest)) {r : Request α}
    (h : r.Sendable fits) (t : List UInt8) : ofBody address (r.body address ++ t) r.operation = .ok (r.mapAddress f) := by
  have work : ∀ {w : Work}, w.Portable → Work.codec.decode (Work.codec.write w ++ t) = .ok w :=
    fun hw => (Work.keeps_codec hw).decode_append t
  have node : ∀ {n : NodeId}, Fits n.text → NodeId.codec.decode (NodeId.codec.write n ++ t) = .ok n :=
    fun hn => (NodeId.keeps_codec hn).decode_append t
  have free : ∀ {n : NodeId} {k : UInt64}, Fits n.text → (NodeId.codec.pair .word64).decode
      ((NodeId.codec.pair .word64).write (n, k) ++ t) = .ok (n, k) :=
    fun hn => ((NodeId.keeps_codec hn).pair (Codec.keeps_word64 _)).decode_append t
  cases r with
  | join n a =>
    have parts : (NodeId.codec.pair address).write (n, a) ++ t = NodeId.codec.write n ++ (address.write a ++ t) :=
      List.append_assoc _ _ _
    have read := Codec.pair_read (NodeId.keeps_codec h.1 _) (ha a h.2 t)
    rw [body, operation, ofBody, parts, Codec.decode, read]
    rfl
  | leave n => rw [body, operation, ofBody, node h]; rfl
  | ping => rfl
  | doWork w => rw [body, operation, ofBody, work h]; rfl
  | startWork w => rw [body, operation, ofBody, work h]; rfl
  | scheduleWork w => rw [body, operation, ofBody, work h]; rfl
  | getShortRunningFree => rfl
  | getLongRunningFree => rfl
  | updateShortRunningFree n k => rw [body, operation, ofBody, free h]; rfl
  | updateLongRunningFree n k => rw [body, operation, ofBody, free h]; rfl
  | delta n c => rw [body, operation, ofBody, node h]; rfl

theorem decode_append {f : α → α} {fits : α → Prop}
    (ha : ∀ a, fits a → ∀ rest, address.read (address.write a ++ rest) = .ok (f a, rest)) {r : Request α}
    (h : r.Sendable fits) (t : List UInt8) :
    decode address (r.encode address).1 ((r.encode address).2 ++ t) = .ok (r.mapAddress f) := by
  have read : decode address r.operation.id (r.body address ++ t) = _ := decode_id _ _
  rw [ofBody_append ha h] at read
  exact read

theorem mapAddress_id (r : Request α) : r.mapAddress id = r := by
  cases r <;> rfl

/-- Whatever follows an encoded request, decoding gives the request back; of an IPv6 address flow information and scope
are not sent. A work that the HTTP interface takes is such a request if its payload has whole numbers only. -/
theorem decode_undoes_encode :
    (∀ r : Request String, r.Sendable Fits →
      ∀ t, decode .string (r.encode .string).1 ((r.encode .string).2 ++ t) = .ok r) ∧
    (∀ r : Request SocketAddress, r.Sendable (fun _ => True) →
      ∀ t, decode SocketAddress.codec (r.encode SocketAddress.codec).1 ((r.encode SocketAddress.codec).2 ++ t) =
        .ok (r.mapAddress SocketAddress.sent)) ∧
    ∀ (fresh : WorkId) (q : Http.Request) (mode : Mode) (w : Work), q.action fresh = .submit mode w →
      w.payload.Reals (fun _ => False) → Fits w.id.text → Fits w.handler → Fits w.payload.text →
      ∀ {α : Type} (address : Codec α) (t : List UInt8),
        decode address (encode address (submit mode w)).1 ((encode address (submit mode w)).2 ++ t) =
          .ok (submit mode w) := by
  refine ⟨fun r h t => ?_, fun r h t => ?_, fun fresh q mode w accepted whole name handler text α address t => ?_⟩
  · have read := decode_append (f := id) (fun a ha rest => Codec.keeps_string ha rest) h t
    rw [mapAddress_id] at read
    exact read
  · exact decode_append (fun a _ rest => SocketAddress.read_codec a rest) h t
  · have normal := Work.normal_of_readStart (Http.Request.readStart_of_action accepted)
    have portable : w.Portable := ⟨name, handler, text, Json.Value.portable_iff.mpr ⟨normal, whole⟩⟩
    have sendable : (submit mode w : Request α).Sendable fun _ => False := by cases mode <;> exact portable
    have read : decode address (encode address (submit mode w)).1 ((encode address (submit mode w)).2 ++ t) =
        .ok ((submit mode w).mapAddress id) := decode_append (fun _ ha => ha.elim) sendable t
    rw [mapAddress_id] at read
    exact read

theorem read_posted : Json.Raw.read "\x7b\"handler\":\"h\",\"payload\":7\x7d".toList =
    (.obj (.cons ⟨.ok "handler", none⟩ (.str ⟨.ok "h", none⟩)
      (.cons ⟨.ok "payload", none⟩ (.num ⟨.ok (.int 7), none⟩) .closed)), []) := by
  have text : "\x7b\"handler\":\"h\",\"payload\":7\x7d".toList = '\x7b' :: '"' ::
      ("handler".toList.flatMap Json.escapeChar ++ '"' :: ':' :: '"' :: ("h".toList.flatMap Json.escapeChar ++
        '"' :: ',' :: '"' :: ("payload".toList.flatMap Json.escapeChar ++ '"' :: ':' :: '7' :: ['\x7d']))) := by
    decide +kernel
  have length : "\x7b\"handler\":\"h\",\"payload\":7\x7d".toList.length = 27 := by decide +kernel
  have number : Json.readValue 52 ['7', '\x7d'] = (.num ⟨.ok (.int 7), none⟩, ['\x7d']) := rfl
  rw [Json.Raw.read, length, text]
  exact Json.readValue_brace (Json.readMembers_more (Json.readString_quote "handler" _) (Json.readValue_quote 52 "h" _)
    (Json.readMembers_last (Json.readString_quote "payload" _) number))

theorem action_posted : Http.Request.action ⟨"f"⟩
    ⟨"POST", "/work/do", "application/json", "\x7b\"handler\":\"h\",\"payload\":7\x7d"⟩ =
      .submit .run ⟨⟨"f"⟩, "h", .int 7, false, false⟩ := by
  have path : Http.pathOf "/work/do" = "/work/do" := by decide +kernel
  have resource : Http.Resource.ofPath? "/work/do" = some (.work .run) := rfl
  have json : Http.isJson "application/json" = true := by decide +kernel
  refine Http.Request.action_of_readStart (path ▸ resource) rfl json ?_
  rw [Json.Form.readStart, Json.Shape.readStart, read_posted]
  rfl

theorem decode_undoes_encode_posted :
    ((.join ⟨"b"⟩ "b:1" : Request String).Sendable Fits ∧
      decode .string (encode .string (.join ⟨"b"⟩ "b:1")).1 ((encode .string (.join ⟨"b"⟩ "b:1")).2 ++ [1, 2]) =
        .ok (.join ⟨"b"⟩ "b:1")) ∧
    ((.join ⟨"b"⟩ (.v6 1 7001 5 6) : Request SocketAddress).Sendable (fun _ => True) ∧
      decode SocketAddress.codec (encode SocketAddress.codec (.join ⟨"b"⟩ (.v6 1 7001 5 6))).1
          ((encode SocketAddress.codec (.join ⟨"b"⟩ (.v6 1 7001 5 6))).2 ++ []) = .ok (.join ⟨"b"⟩ (.v6 1 7001 0 0))) ∧
    Http.Request.action ⟨"f"⟩
        ⟨"POST", "/work/do", "application/json", "\x7b\"handler\":\"h\",\"payload\":7\x7d"⟩ =
          .submit .run ⟨⟨"f"⟩, "h", .int 7, false, false⟩ ∧
      decode .string (encode .string (submit .run ⟨⟨"f"⟩, "h", .int 7, false, false⟩)).1
          ((encode .string (submit .run ⟨⟨"f"⟩, "h", .int 7, false, false⟩)).2 ++ []) =
        .ok (submit .run ⟨⟨"f"⟩, "h", .int 7, false, false⟩) := by
  have named : Fits "b" ∧ Fits "b:1" := by decide
  have small : Fits "f" ∧ Fits "h" ∧ Fits (Json.Value.int 7).text := by decide +kernel
  exact ⟨⟨named, decode_undoes_encode.1 (.join ⟨"b"⟩ "b:1") named _⟩,
    ⟨⟨named.1, trivial⟩, decode_undoes_encode.2.1 (.join ⟨"b"⟩ (.v6 1 7001 5 6)) ⟨named.1, trivial⟩ _⟩,
    action_posted, decode_undoes_encode.2.2 _ _ _ _ action_posted trivial small.1 small.2.1 small.2.2 _ _⟩

end Request

end Workshare
