import Workshare.Reply

namespace Workshare

open Wire

/-- What came of a request: the bytes of the reply, or the text of an error. -/
abbrev FrameResult := Except String (List UInt8)

inductive Frame
  | request (id : UInt64) (op : UInt16) (body : List UInt8) (expectsReply : Bool)
  | reply (id : UInt64) (result : FrameResult)
  deriving Repr

namespace Frame

def resultCodec : Codec FrameResult :=
  (Codec.bytes.either .string).imap
    (fun
      | .inl bytes => .ok bytes
      | .inr text => .error text)
    (fun
      | .ok bytes => .inl bytes
      | .error text => .inr text)

def codec : Codec Frame :=
  ((Codec.word64.pair (Codec.word16.pair (Codec.bytes.pair .flag))).either (Codec.word64.pair resultCodec)).imap
    (fun
      | .inl (id, op, body, expectsReply) => .request id op body expectsReply
      | .inr (id, result) => .reply id result)
    (fun
      | .request id op body expectsReply => .inl (id, op, body, expectsReply)
      | .reply id result => .inr (id, result))

def maxSize : Nat :=
  65507

def tooLarge (size : Nat) : ChannelError :=
  .remote ("datagram of " ++ toString size ++ " bytes exceeds the UDP limit")

/-- The bytes of a frame, if they fit into a datagram. -/
def encode (f : Frame) : Except ChannelError (List UInt8) :=
  let bytes := codec.write f
  if bytes.length ≤ maxSize then .ok bytes else .error (tooLarge bytes.length)

/-- The bytes that leave; the fault is what the network has to say against it. -/
def send (f : Frame) (fault : Option String) : Except ChannelError (List UInt8) := do
  let bytes ← f.encode
  match fault with
  | none => return bytes
  | some text => throw (.io text)

/-- The bytes that bring back what came of a frame's request, if a reply is expected. They leave whatever their size. -/
def answer? (f : Frame) (served : Except ChannelError (List UInt8)) : Option (List UInt8) :=
  match f with
  | .request id _ _ true => some (codec.write (.reply id (served.mapError ChannelError.message)))
  | _ => none

end Frame

end Workshare
