import Workshare.Proofs.Json.RoundTrip
import Workshare.Proofs.Wire.Exact

namespace Workshare

open Wire

/-- A work whose texts can be sent, and whose payload a reader takes. -/
structure Work.Portable (w : Work) : Prop where
  id : Fits w.id.text
  handler : Fits w.handler
  text : Fits w.payload.text
  payload : w.payload.Portable 0

/-- The bytes of a work whose payload is told by the given text. -/
def Work.bytes (w : Work) (text : String) : List UInt8 :=
  WorkId.codec.write w.id ++ (Codec.string.write w.handler ++ (Codec.string.write text ++
    (Codec.flag.write w.distributable ++ Codec.flag.write w.longRunning)))

theorem Json.Value.read_codec {text : String} {v : Json.Value} (ht : Fits text) (h : Value.read text = .ok v)
    (rest : List UInt8) : Json.Value.codec.read (Codec.string.write text ++ rest) = .ok (v, rest) := by
  have kept := Codec.keeps_string ht rest
  unfold Json.Value.codec
  dsimp only
  rw [kept]
  simp only [bind, Except.bind, h]

/-- Any text of its payload gives the same work. -/
theorem Work.read_bytes {w : Work} {text : String} (hi : Fits w.id.text) (hh : Fits w.handler) (ht : Fits text)
    (hv : Json.Value.read text = .ok w.payload) (rest : List UInt8) :
    Work.codec.read (w.bytes text ++ rest) = .ok (w, rest) := by
  have flags := (Codec.keeps_flag w.distributable).pair (Codec.keeps_flag w.longRunning) rest
  have payload := Codec.pair_read (Json.Value.read_codec ht hv _) flags
  have handler := Codec.pair_read (Codec.keeps_string hh _) payload
  have all := Codec.pair_read (WorkId.keeps_codec hi _) handler
  have parts : w.bytes text ++ rest = WorkId.codec.write w.id ++ (Codec.string.write w.handler ++
      (Codec.string.write text ++ ((Codec.flag.pair .flag).write (w.distributable, w.longRunning) ++ rest))) := by
    unfold Work.bytes
    simp only [List.append_assoc]
    rfl
  unfold Work.codec Codec.imap
  dsimp only
  rw [parts, all]
  rfl

theorem Work.keeps_codec {w : Work} (h : w.Portable) : Work.codec.Keeps w :=
  Work.read_bytes h.id h.handler h.text (Json.Value.read_text h.payload)

/-- Bytes that are read as a work are those of the work, with some text of its payload. -/
theorem Work.of_read {w : Work} {bs rest : List UInt8} (h : Work.codec.read bs = .ok (w, rest)) :
    ∃ text, bs = w.bytes text ++ rest ∧ Json.Value.read text = .ok w.payload ∧ Fits w.id.text ∧ Fits w.handler := by
  obtain ⟨⟨id, handler, payload, distributable, longRunning⟩, read, rfl⟩ := Codec.read_imap h
  obtain ⟨bs₁, readId, read⟩ := Codec.read_pair read
  obtain ⟨bs₂, readHandler, read⟩ := Codec.read_pair read
  obtain ⟨bs₃, readPayload, readFlags⟩ := Codec.read_pair read
  obtain ⟨_, readText, rfl⟩ := Codec.read_imap readId
  obtain ⟨parts, fitsId⟩ := Codec.read_string readText
  obtain ⟨parts₁, fitsHandler⟩ := Codec.read_string readHandler
  obtain ⟨⟨text, bs₄⟩, readPayload, value⟩ := Except.exists_of_bind readPayload
  have parts₃ := (Codec.exact_flag.pair Codec.exact_flag) _ _ _ readFlags
  dsimp only at value
  split at value
  next v hv =>
    cases value
    have parts₂ := Codec.exact_string _ _ _ readPayload
    refine ⟨text, ?_, hv, fitsId, fitsHandler⟩
    rw [parts, parts₁, parts₂, parts₃]
    unfold Work.bytes
    simp only [List.append_assoc]
    rfl
  next => cases value

theorem Work.cuts_codec {w : Work} (h : w.Portable) : Work.codec.Cuts w := by
  have value : Json.Value.codec.Cuts w.payload := by
    intro front back split rest
    obtain ⟨f, io, read⟩ := Codec.cuts_string h.text _ _ split rest
    exact ⟨f, io, Codec.bind_error read⟩
  have flags := Codec.Cuts.pair (Codec.keeps_flag w.distributable) (Codec.cuts_flag w.distributable)
    (Codec.cuts_flag w.longRunning)
  have kept : Json.Value.codec.Keeps w.payload := Json.Value.read_codec h.text (Json.Value.read_text h.payload)
  have payload := Codec.Cuts.pair kept value flags
  have handler := Codec.Cuts.pair (Codec.keeps_string h.handler) (Codec.cuts_string h.handler) payload
  have id : WorkId.codec.Cuts w.id := Codec.Cuts.imap (Codec.cuts_string h.id)
  unfold Work.codec
  exact Codec.Cuts.imap (Codec.Cuts.pair (WorkId.keeps_codec h.id) id handler)

namespace Request

variable {α : Type} {address : Codec α}

theorem decode_kept {w : Work} (h : Work.codec.Keeps w) (mode : Mode) :
    decode address (encode address (submit mode w)).1 (encode address (submit mode w)).2 = .ok (submit mode w) := by
  have work := h.decode
  cases mode with
  | run =>
    have read : decode address Operation.doWork.id (Work.codec.write w) = _ := decode_id _ _
    rw [ofBody, work] at read
    exact read
  | start =>
    have read : decode address Operation.startWork.id (Work.codec.write w) = _ := decode_id _ _
    rw [ofBody, work] at read
    exact read
  | schedule =>
    have read : decode address Operation.scheduleWork.id (Work.codec.write w) = _ := decode_id _ _
    rw [ofBody, work] at read
    exact read

theorem decode_submit {w : Work} (h : w.Portable) (mode : Mode) :
    decode address (encode address (submit mode w)).1 (encode address (submit mode w)).2 = .ok (submit mode w) :=
  decode_kept (Work.keeps_codec h) mode

theorem submit_injective {mode : Mode} {v w : Work} (h : (submit mode v : Request α) = submit mode w) : v = w := by
  cases mode <;> (cases h; rfl)

end Request

end Workshare
