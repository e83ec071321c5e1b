import Workshare.Counter
import Workshare.Error

namespace Workshare

inductive Operation
  | join
  | leave
  | ping
  | doWork
  | startWork
  | scheduleWork
  | getShortRunningFree
  | getLongRunningFree
  | updateShortRunningFree
  | updateLongRunningFree
  | delta (c : Counter)
  deriving DecidableEq, Repr

namespace Operation

def id : Operation → UInt16
  | .join => 1
  | .leave => 2
  | .ping => 3
  | .doWork => 4
  | .startWork => 5
  | .scheduleWork => 6
  | .getShortRunningFree => 7
  | .getLongRunningFree => 8
  | .updateShortRunningFree => 9
  | .updateLongRunningFree => 10
  | .delta c => 11 + c.index.toUInt16

def all : List Operation :=
  [.join, .leave, .ping, .doWork, .startWork, .scheduleWork, .getShortRunningFree, .getLongRunningFree,
    .updateShortRunningFree, .updateLongRunningFree] ++ Counter.all.map .delta

def ofId (n : UInt16) : Except ChannelError Operation :=
  match all.find? (·.id = n) with
  | some op => .ok op
  | none => .error (.unknownOperation n)

def name : Operation → String
  | .join => "Join"
  | .leave => "Leave"
  | .ping => "Ping"
  | .doWork => "DoWork"
  | .startWork => "StartWork"
  | .scheduleWork => "ScheduleWork"
  | .getShortRunningFree => "GetShortRunningFree"
  | .getLongRunningFree => "GetLongRunningFree"
  | .updateShortRunningFree => "UpdateShortRunningFree"
  | .updateLongRunningFree => "UpdateLongRunningFree"
  | .delta c => "Delta" ++ c.name

def counter? : Operation → Option Counter
  | .delta c => some c
  | _ => none

/-- Nobody waits for the reply of these. -/
def isOneWay : Operation → Bool
  | .join => true
  | .leave => true
  | .updateShortRunningFree => true
  | .updateLongRunningFree => true
  | .delta _ => true
  | _ => false

end Operation

end Workshare
