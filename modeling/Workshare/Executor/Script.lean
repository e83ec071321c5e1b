import Workshare.Manager.Submission

namespace Workshare

/-- An executor that has the free workers that the script says, and runs nothing. -/
structure Script where
  free : Free
  reject : Bool
  fail : Bool
  startDelay : UInt64
  /-- Milliseconds that a submission waits before the script is read. -/
  delay : Nat
  deriving DecidableEq, Repr

namespace Script

/-- What the hook of a submission is told; a rejected work has no outcome. -/
def hook (s : Script) : Option Bool :=
  if s.reject then none else some (!s.fail)

/-- Only a submission that waits for the end of its work sees the work fail. -/
def outcome (s : Script) (mode : Mode) : Outcome :=
  if s.reject then .error (.rejected "scripted rejection")
  else
    match mode with
    | .run => if s.fail then .error (.failed "scripted failure") else .ok none
    | .start => .ok (some s.startDelay)
    | .schedule => .ok none

end Script

end Workshare
