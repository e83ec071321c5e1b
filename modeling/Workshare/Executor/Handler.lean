import Workshare.Text.Quoted
import Workshare.Work
import Workshare.Table

namespace Workshare

/-- Why a work failed. -/
inductive HandlerFault
  | failed (text : String)
  | panicked (text : String)
  deriving DecidableEq, Repr

/-- The text under which a failure is reported; the task's number is not told. -/
def HandlerFault.message : HandlerFault → String
  | .failed text => text
  | .panicked text => "work handler panicked: task N panicked with message " ++ Quoted.quote text

/-- How a work ended. -/
abbrev Verdict := Except HandlerFault Unit

/-- What a handler does with a work. -/
inductive Behaviour
  | ends (verdict : Verdict)
  | sleeps (millis : Nat) (next : Behaviour)
  /-- Waits for a signal from outside. -/
  | waits (next : Behaviour)

structure Handler where
  title : String
  act : Work → Behaviour

/-- Handlers by name. -/
abbrev Registry := Table String Handler

def Registry.unknown (name : String) : Verdict :=
  .error (.failed ("Unknown work handler: " ++ name))

namespace Handler

def log : Handler :=
  ⟨"log", fun _ => .ends (.ok ())⟩

/-- Sleeps for the number of milliseconds that the payload gives, or for a second. -/
def sleep : Handler :=
  ⟨"sleep", fun w => .sleeps (millis w.payload) (.ends (.ok ()))⟩
where
  millis (payload : Json.Value) : Nat :=
    match payload.member? "millis" with
    | some (.int (.ofNat n)) => n
    | _ => 1000

def fail : Handler :=
  ⟨"fail", fun w => .ends (.error (.failed ("work " ++ w.id.text ++ " failed on request")))⟩

end Handler

def Registry.builtin : Registry :=
  .ofList [("sleep", .sleep), ("log", .log), ("fail", .fail)]

end Workshare
