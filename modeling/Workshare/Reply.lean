import Workshare.Error

namespace Workshare

open Wire

inductive Reply
  | done
  | value (n : UInt64)
  deriving DecidableEq, Repr

namespace Reply

def codec : Codec Reply :=
  (Codec.unit.either .word64).imap
    (fun
      | .inl () => .done
      | .inr n => .value n)
    (fun
      | .done => .inl ()
      | .value n => .inr n)

end Reply

/-- What a served request answers: a reply or the text of an error. -/
abbrev ReplyResult := Except String Reply

def ReplyResult.codec : Codec ReplyResult :=
  (Reply.codec.either .string).imap
    (fun
      | .inl r => .ok r
      | .inr text => .error text)
    (fun
      | .ok r => .inl r
      | .error text => .inr text)

end Workshare
