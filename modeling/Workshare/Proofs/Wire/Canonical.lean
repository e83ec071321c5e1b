import Workshare.Proofs.Wire.Requests

namespace Workshare.Request

open Wire

variable {α : Type} {address : Codec α}

theorem id_bounds : ∀ op ∈ Operation.all, 1 ≤ op.id ∧ op.id ≤ 18 := by
  decide

theorem ofId_ok {n : UInt16} {op : Operation} (h : Operation.ofId n = .ok op) : op.id = n := by
  unfold Operation.ofId at h
  split at h
  next found => cases h; simpa using List.find?_some found
  next => cases h

theorem ofId_unknown {n : UInt16} (h : n < 1 ∨ 18 < n) : Operation.ofId n = .error (.unknownOperation n) := by
  unfold Operation.ofId
  split
  next op found =>
    have bounds := id_bounds op (List.mem_of_find?_eq_some found)
    have same : op.id = n := by simpa using List.find?_some found
    rw [same] at bounds
    rcases h with h | h
    · exact absurd bounds.1 (UInt16.not_le.mpr h)
    · exact absurd bounds.2 (UInt16.not_le.mpr h)
  next => rfl

theorem decode_ok {n : UInt16} {body : List UInt8} {r : Request α} (h : decode address n body = .ok r) :
    ∃ op, op.id = n ∧ ofBody address body op = .ok r := by
  unfold decode at h
  obtain ⟨op, named, h⟩ := Except.exists_of_bind h
  refine ⟨op, ofId_ok named, ?_⟩
  split at h
  next r' read => cases h; exact read
  next => cases h

theorem decoded {β : Type} {c : Codec β} {f : β → Request α} {body : List UInt8} {r : Request α}
    (h : (c.decode body).map f = .ok r) : ∃ b rest, c.read body = .ok (b, rest) ∧ f b = r := by
  obtain ⟨b, decoded, same⟩ := Except.exists_of_map h
  obtain ⟨rest, read⟩ := Codec.read_of_decode decoded
  exact ⟨b, rest, read, same⟩

/-- Bytes read as a request that submits nothing begin with the bytes of the request. -/
theorem starts_of_ofBody (ha : address.Exact) {op : Operation} {bytes : List UInt8} {r : Request α}
    (h : ofBody address bytes op = .ok r) (hs : r.submission? = none) : ∃ t, bytes = r.body address ++ t := by
  have node : NodeId.codec.Exact := Codec.Exact.imap Codec.exact_string fun _ _ _ _ => rfl
  cases op with
  | join =>
    obtain ⟨⟨n, a⟩, rest, read, rfl⟩ := decoded h
    exact ⟨rest, node.pair ha _ _ _ read⟩
  | leave =>
    obtain ⟨n, rest, read, rfl⟩ := decoded h
    exact ⟨rest, node _ _ _ read⟩
  | ping => cases h; exact ⟨bytes, rfl⟩
  | doWork => obtain ⟨w, rest, read, rfl⟩ := decoded h; cases hs
  | startWork => obtain ⟨w, rest, read, rfl⟩ := decoded h; cases hs
  | scheduleWork => obtain ⟨w, rest, read, rfl⟩ := decoded h; cases hs
  | getShortRunningFree => cases h; exact ⟨bytes, rfl⟩
  | getLongRunningFree => cases h; exact ⟨bytes, rfl⟩
  | updateShortRunningFree =>
    obtain ⟨⟨n, k⟩, rest, read, rfl⟩ := decoded h
    exact ⟨rest, node.pair Codec.exact_word64 _ _ _ read⟩
  | updateLongRunningFree =>
    obtain ⟨⟨n, k⟩, rest, read, rfl⟩ := decoded h
    exact ⟨rest, node.pair Codec.exact_word64 _ _ _ read⟩
  | delta c =>
    obtain ⟨n, rest, read, rfl⟩ := decoded h
    exact ⟨rest, node _ _ _ read⟩

/-- Bytes read as a request that submits a work begin with the bytes of the work. -/
theorem work_of_ofBody {op : Operation} {bytes : List UInt8} {r : Request α} (h : ofBody address bytes op = .ok r)
    {mode : Mode} {w : Work} (hs : r.submission? = some (mode, w)) :
    r = submit mode w ∧ ∃ rest, Work.codec.read bytes = .ok (w, rest) := by
  cases op with
  | join => obtain ⟨b, rest, read, rfl⟩ := decoded h; cases hs
  | leave => obtain ⟨b, rest, read, rfl⟩ := decoded h; cases hs
  | ping => cases h; cases hs
  | doWork => obtain ⟨w', rest, read, rfl⟩ := decoded h; cases hs; exact ⟨rfl, rest, read⟩
  | startWork => obtain ⟨w', rest, read, rfl⟩ := decoded h; cases hs; exact ⟨rfl, rest, read⟩
  | scheduleWork => obtain ⟨w', rest, read, rfl⟩ := decoded h; cases hs; exact ⟨rfl, rest, read⟩
  | getShortRunningFree => cases h; cases hs
  | getLongRunningFree => cases h; cases hs
  | updateShortRunningFree => obtain ⟨b, rest, read, rfl⟩ := decoded h; cases hs
  | updateLongRunningFree => obtain ⟨b, rest, read, rfl⟩ := decoded h; cases hs
  | delta c => obtain ⟨b, rest, read, rfl⟩ := decoded h; cases hs

theorem cuts_ofBody {fits : α → Prop} (hc : ∀ a, fits a → address.Cuts a) {r : Request α} (h : r.Sendable fits)
    {front back : List UInt8} (split : r.body address = front ++ back) (hb : back ≠ []) :
    ∃ f, f.IsIo ∧ ofBody address front r.operation = .error f := by
  have refused : ∀ {β : Type} {c : Codec β} {b : β} (g : β → Request α), c.Cuts b → c.write b = front ++ back →
      ∃ f, f.IsIo ∧ (c.decode front).map g = .error f := by
    intro β c b g cuts written
    obtain ⟨f, io, read⟩ := cuts _ _ written hb
    exact ⟨f, io, by rw [Codec.decode, read]; rfl⟩
  have node : ∀ {n : NodeId}, Fits n.text → NodeId.codec.Cuts n := fun hn => Codec.Cuts.imap (Codec.cuts_string hn)
  have nothing : ([] : List UInt8) = front ++ back → False := fun he => hb (List.append_eq_nil_iff.mp he.symm).2
  cases r with
  | join n a => exact refused _ (Codec.Cuts.pair (NodeId.keeps_codec h.1) (node h.1) (hc a h.2)) split
  | leave n => exact refused _ (node h) split
  | ping => exact (nothing split).elim
  | doWork w => exact refused _ (Work.cuts_codec h) split
  | startWork w => exact refused _ (Work.cuts_codec h) split
  | scheduleWork w => exact refused _ (Work.cuts_codec h) split
  | getShortRunningFree => exact (nothing split).elim
  | getLongRunningFree => exact (nothing split).elim
  | updateShortRunningFree n k =>
    exact refused _ (Codec.Cuts.pair (NodeId.keeps_codec h) (node h) (Codec.cuts_word64 k)) split
  | updateLongRunningFree n k =>
    exact refused _ (Codec.Cuts.pair (NodeId.keeps_codec h) (node h) (Codec.cuts_word64 k)) split
  | delta n c => exact refused _ (node h) split

/-- What the decoder of requests makes of numbers and bodies, for one kind of addresses. -/
structure OnlyEncodings (address : Codec α) (fits : α → Prop) : Prop where
  /-- The request is one of the operation that was asked for. -/
  operation : ∀ {id body r}, decode address id body = .ok r → r.operation.id = id
  /-- The body of a request that submits nothing is its encoding, and anything after it. -/
  encoding : ∀ {id body r}, decode address id body = .ok r → r.submission? = none →
    ∃ t, body = (encode address r).2 ++ t
  /-- The body of a submission is its encoding but for the text of the payload, and anything after it. -/
  work : ∀ {id body r mode w}, decode address id body = .ok r → r.submission? = some (mode, w) →
    (encode address r).2 = w.bytes w.payload.text ∧
      ∃ text t, body = w.bytes text ++ t ∧ Json.Value.read text = .ok w.payload
  /-- A submission is encoded and decoded again to itself, if every double in its payload is read from its own text. -/
  again : ∀ {id body r mode w}, decode address id body = .ok r → r.submission? = some (mode, w) →
    w.payload.Reals Double.Returns → Fits w.payload.text → decode address (encode address r).1 (encode address r).2 = .ok r
  /-- A body that is cut short is refused. -/
  cut : ∀ {r : Request α} {front back}, r.Sendable fits → (encode address r).2 = front ++ back → back ≠ [] →
    ∃ f, f.IsIo ∧ decode address (encode address r).1 front = .error (.codec f)
  /-- Other numbers are refused, whatever the body. -/
  unknown : ∀ {id}, id < 1 ∨ 18 < id → ∀ body, decode address id body = .error (.unknownOperation id)

theorem onlyEncodings {fits : α → Prop} (ha : address.Exact) (hc : ∀ a, fits a → address.Cuts a) :
    OnlyEncodings address fits where
  operation := by
    intro id body r h
    obtain ⟨op, same, read⟩ := decode_ok h
    rw [operation_of_ofBody read, same]
  encoding := by
    intro id body r h hs
    obtain ⟨op, _, read⟩ := decode_ok h
    exact starts_of_ofBody ha read hs
  work := by
    intro id body r mode w h hs
    obtain ⟨op, _, read⟩ := decode_ok h
    obtain ⟨rfl, rest, bytes⟩ := work_of_ofBody read hs
    obtain ⟨text, parts, value, _⟩ := Work.of_read bytes
    refine ⟨?_, text, rest, parts, value⟩
    cases mode <;> rfl
  again := by
    intro id body r mode w h hs hx ht
    obtain ⟨op, _, read⟩ := decode_ok h
    obtain ⟨rfl, rest, bytes⟩ := work_of_ofBody read hs
    obtain ⟨text, _, value, fitsId, fitsHandler⟩ := Work.of_read bytes
    have back := Json.Value.read_normal (Json.normal_of_read value) hx
    exact decode_kept (Work.read_bytes fitsId fitsHandler ht back) mode
  cut := by
    intro r front back h split hb
    obtain ⟨f, io, read⟩ := cuts_ofBody hc h split hb
    have refused : decode address r.operation.id front = _ := decode_id _ _
    rw [read] at refused
    exact ⟨f, io, refused⟩
  unknown := by
    intro id h body
    unfold decode
    rw [ofId_unknown h]
    rfl

theorem decodes_only_encodings :
    OnlyEncodings Codec.string Fits ∧ OnlyEncodings SocketAddress.codec fun _ => True :=
  ⟨onlyEncodings Codec.exact_string fun _ => Codec.cuts_string,
    onlyEncodings SocketAddress.exact_codec fun a _ => SocketAddress.cuts_codec a⟩

theorem decode_bytes {w : Work} {text : String} (hi : Fits w.id.text) (hh : Fits w.handler) (ht : Fits text)
    (hv : Json.Value.read text = .ok w.payload) :
    decode address Operation.doWork.id (w.bytes text) = .ok (.doWork w) := by
  have read := Work.read_bytes hi hh ht hv []
  have body : decode address Operation.doWork.id (w.bytes text) = _ := decode_id _ _
  rw [List.append_nil] at read
  rw [ofBody, Codec.decode, read] at body
  exact body

def lone (x : Double) : Work :=
  ⟨⟨"w"⟩, "h", .real x, false, false⟩

theorem fits_lone (x : Double) : Fits (lone x).id.text ∧ Fits (lone x).handler := by
  have small : Fits "w" ∧ Fits "h" := by decide
  exact small

/-- A double is read again as what its text is read as. -/
theorem decode_encode_lone {x y : Double} {text : String} (ht : (Json.Value.real x).text = text) (hs : Fits text)
    (hr : Json.Value.read text = .ok (.real y)) :
    decode address (encode address (.doWork (lone x))).1 (encode address (.doWork (lone x))).2 =
      .ok (.doWork (lone y)) := by
  subst ht
  exact decode_bytes (w := lone y) (fits_lone y).1 (fits_lone y).2 hs hr

/-- A half returns, however it is written; and a body that lacks its last byte is refused. -/
theorem decodes_only_encodings_half :
    (decode .string Operation.doWork.id ((lone ⟨false, 4503599627370496, -53⟩).bytes "5e-1") =
        .ok (.doWork (lone ⟨false, 4503599627370496, -53⟩)) ∧
      decode .string (encode .string (.doWork (lone ⟨false, 4503599627370496, -53⟩))).1
          (encode .string (.doWork (lone ⟨false, 4503599627370496, -53⟩))).2 =
        .ok (.doWork (lone ⟨false, 4503599627370496, -53⟩))) ∧
    ((.leave ⟨"b"⟩ : Request String).Sendable Fits ∧
      ∃ f : Fault, f.IsIo ∧ decode .string 2 [1, 0, 0, 0, 0, 0, 0, 0] = .error (.codec f)) := by
  have text : (Json.Value.real ⟨false, 4503599627370496, -53⟩).text = "0.5" := by decide +kernel
  have spelled : Json.Value.read "5e-1" = .ok (.real ⟨false, 4503599627370496, -53⟩) := by rfl
  have shortest : Json.Value.read "0.5" = .ok (.real ⟨false, 4503599627370496, -53⟩) := by rfl
  have returns : (lone ⟨false, 4503599627370496, -53⟩).payload.Reals Double.Returns := by
    show Json.Value.read (Json.Value.real _).text = _
    rw [text]
    exact shortest
  have read : decode .string Operation.doWork.id ((lone ⟨false, 4503599627370496, -53⟩).bytes "5e-1") =
      .ok (.doWork (lone ⟨false, 4503599627370496, -53⟩)) :=
    decode_bytes (fits_lone _).1 (fits_lone _).2 (by decide) spelled
  have fits : Fits (lone ⟨false, 4503599627370496, -53⟩).payload.text := by
    show Fits (Json.Value.real _).text
    rw [text]
    decide
  have named : (.leave ⟨"b"⟩ : Request String).Sendable Fits := by
    show Fits "b"
    decide
  refine ⟨⟨read, decodes_only_encodings.1.again read rfl returns fits⟩, named, ?_⟩
  have written : (encode .string (.leave ⟨"b"⟩ : Request String)).2 = [1, 0, 0, 0, 0, 0, 0, 0] ++ [98] := by decide
  exact decodes_only_encodings.1.cut named written (by simp)

set_option maxRecDepth 4000 in
/-- The text `11e23` is read as a double one below the nearest, and the text of that double as the nearest. -/
theorem decode_rounds_again :
    decode .string Operation.doWork.id ((lone ⟨false, 8195638656616210, 27⟩).bytes "11e23") =
        .ok (.doWork (lone ⟨false, 8195638656616210, 27⟩)) ∧
      decode .string (encode .string (.doWork (lone ⟨false, 8195638656616210, 27⟩))).1
          (encode .string (.doWork (lone ⟨false, 8195638656616210, 27⟩))).2 ≠
        .ok (.doWork (lone ⟨false, 8195638656616210, 27⟩)) := by
  have text : (Json.Value.real ⟨false, 8195638656616210, 27⟩).text = "1.0999999999999999e+24" := by decide +kernel
  have below : Json.Value.read "11e23" = .ok (.real ⟨false, 8195638656616210, 27⟩) := by rfl
  have nearest : Json.Value.read "1.0999999999999999e+24" = .ok (.real ⟨false, 8195638656616211, 27⟩) := by rfl
  refine ⟨decode_bytes (fits_lone _).1 (fits_lone _).2 (by decide) below, fun same => ?_⟩
  have payload : Json.Value.real ⟨false, 8195638656616211, 27⟩ = .real ⟨false, 8195638656616210, 27⟩ :=
    congrArg Work.payload (Request.doWork.inj (Except.ok.inj
      ((decode_encode_lone text (by decide) nearest).symm.trans same)))
  exact absurd (Double.mk.inj (Json.Value.real.inj payload)).2.1 (by decide)

end Workshare.Request
