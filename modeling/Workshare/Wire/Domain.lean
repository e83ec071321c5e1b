import Workshare.Wire.Codec
import Workshare.Json.Shape
import Workshare.NodeId
import Workshare.SocketAddress
import Workshare.Work

namespace Workshare

open Wire

def NodeId.codec : Codec NodeId :=
  Codec.string.imap NodeId.mk NodeId.text

def WorkId.codec : Codec WorkId :=
  Codec.string.imap WorkId.mk WorkId.text

namespace SocketAddress

def bigEndian (count : Nat) : Codec Nat where
  write n := (pieces 8 count n).map (·.toUInt8)
  read bs := (takeBytes .cutShort count bs).map fun (w, rest) => (joinPieces 8 (w.map (·.toNat)), rest)

def codec : Codec SocketAddress :=
  (Codec.either ((bigEndian 4).pair .word16) ((bigEndian 16).pair .word16)).imap
    (fun
      | .inl (ip, port) => .v4 ip.toUInt32 port
      | .inr (ip, port) => .v6 (BitVec.ofNat 128 ip) port 0 0)
    (fun
      | .v4 ip port => .inl (ip.toNat, port)
      | .v6 ip port _ _ => .inr (ip.toNat, port))

end SocketAddress

/-- JSON text as a string; text that is no JSON is refused. -/
def Json.Value.codec : Codec Json.Value where
  write v := Codec.string.write v.text
  read bs := do
    let (text, rest) ← Codec.string.read bs
    match Json.Value.read text with
    | .ok v => .ok (v, rest)
    | .error _ => .error .unknown

def Work.codec : Codec Work :=
  (WorkId.codec.pair (Codec.string.pair (Json.Value.codec.pair (Codec.flag.pair .flag)))).imap
    (fun (id, handler, payload, distributable, longRunning) =>
      ⟨id, handler, payload, distributable, longRunning⟩)
    (fun w => (w.id, w.handler, w.payload, w.distributable, w.longRunning))

end Workshare
