import Workshare.Abort
import Workshare.Settings
import Workshare.SocketAddress

namespace Workshare

structure NodeSettings where
  bind : SocketAddress
  seeds : List SocketAddress
  policy : PolicyChoice
  selector : SelectorChoice
  manager : ManagerSettings
  pool : PoolSettings
  deriving DecidableEq, Repr

namespace NodeSettings

/-- The bind address with its port moved up, if there is such a port. -/
def shiftedPort (s : NodeSettings) (n : UInt16) : Except Abort SocketAddress :=
  if s.bind.port.toNat + n.toNat < UInt16.size then .ok (s.bind.withPort (s.bind.port + n))
  else .error .sumOverflow

def rpcAddr (s : NodeSettings) : Except Abort SocketAddress :=
  s.shiftedPort 1

def httpAddr (s : NodeSettings) : Except Abort SocketAddress :=
  s.shiftedPort 1000

end NodeSettings

namespace CommandLine

inductive Error
  | missingValue (option : String)
  | badAddress
  | badNumber (f : Decimal.Fault)
  | badLevel (text : String) (f : Decimal.Fault)
  | unknownPolicy (text : String)
  | unknownSelector (text : String)
  | bindRequired
  | zeroTimeout
  | zeroThreads
  deriving DecidableEq, Repr

namespace Error

def message : Error → String
  | .missingValue option => "missing value for " ++ option
  | .badAddress => SocketAddress.readFault
  | .badNumber f => f.message
  | .badLevel text _ => "invalid watermark level '" ++ text ++ "'"
  | .unknownPolicy text => "unknown policy '" ++ text ++ "'"
  | .unknownSelector text => "unknown selector '" ++ text ++ "'"
  | .bindRequired => "--bind is required"
  | .zeroTimeout => "--timeout-ms must be greater than zero"
  | .zeroThreads => "worker pools need at least one thread each"

/-- The messages of what lies behind an error. -/
def causes : Error → List String
  | .badLevel _ f => [f.message]
  | _ => []

end Error

/-- The text after a leading part, if it starts with that. -/
def after? (lead : List Char) (cs : List Char) : Option (List Char) :=
  if lead.isPrefixOf cs then some (cs.drop lead.length) else none

def readWord (s : String) : Except Error UInt64 :=
  match Decimal.read UInt64.size s with
  | .ok n => .ok n.toUInt64
  | .error f => .error (.badNumber f)

def readAddress (s : String) : Except Error SocketAddress :=
  (SocketAddress.read? s).elim (.error .badAddress) .ok

def readPolicy (s : String) : Except Error PolicyChoice :=
  if s = "always" then .ok .always
  else if s = "never" then .ok .never
  else
    match after? "watermark:".toList s.toList with
    | none => .error (.unknownPolicy s)
    | some cs =>
      match Decimal.read UInt64.size (String.ofList cs) with
      | .ok n => .ok (.waterMark n.toUInt64)
      | .error f => .error (.badLevel (String.ofList cs) f)

def readSelector (s : String) : Except Error SelectorChoice :=
  if s = "first-available" then .ok .firstAvailable
  else if s = "max-free" then .ok .maxFreeWorkers
  else .error (.unknownSelector s)

/-- Options that take the next argument, whatever it looks like. -/
inductive OptionName
  | bind
  | seed
  | policy
  | selector
  | timeoutMs
  | shortThreads
  | longThreads
  deriving DecidableEq, Repr

namespace OptionName

def text : OptionName → String
  | .bind => "--bind"
  | .seed => "--seed"
  | .policy => "--policy"
  | .selector => "--selector"
  | .timeoutMs => "--timeout-ms"
  | .shortThreads => "--short-threads"
  | .longThreads => "--long-threads"

def all : List OptionName :=
  [.bind, .seed, .policy, .selector, .timeoutMs, .shortThreads, .longThreads]

def ofText? (s : String) : Option OptionName :=
  all.find? (·.text = s)

end OptionName

/-- What an argument means where it stands; a value option at the very end has no value. -/
inductive Item
  | option (name : OptionName) (value : Option String)
  | noStatistics
  | unknown (text : String)
  deriving DecidableEq, Repr

def items : List String → List Item
  | [] => []
  | a :: rest =>
    match OptionName.ofText? a with
    | some name =>
      match rest with
      | [] => [.option name none]
      | v :: rest => .option name (some v) :: items rest
    | none => (if a = "--no-statistics" then .noStatistics else .unknown a) :: items rest

/-- Settings while the bind address may still be missing. -/
structure Draft where
  bind : Option SocketAddress
  seeds : List SocketAddress
  policy : PolicyChoice
  selector : SelectorChoice
  manager : ManagerSettings
  pool : PoolSettings
  deriving DecidableEq, Repr

def Draft.initial : Draft :=
  ⟨none, [], .always, .firstAvailable, .default, .default⟩

def Draft.set (d : Draft) (name : OptionName) (value : String) : Except Error Draft :=
  match name with
  | .bind => (readAddress value).map fun a => { d with bind := some a }
  | .seed => (readAddress value).map fun a => { d with seeds := d.seeds ++ [a] }
  | .policy => (readPolicy value).map fun p => { d with policy := p }
  | .selector => (readSelector value).map fun s => { d with selector := s }
  | .timeoutMs =>
    (readWord value).map fun n => { d with manager.requestTimeout := .ofMillis n.toNat }
  | .shortThreads => (readWord value).map fun n => { d with pool.shortThreads := n }
  | .longThreads => (readWord value).map fun n => { d with pool.longThreads := n }

def Draft.apply (d : Draft) : Item → Except Error Draft
  | .option name (some value) => d.set name value
  | .option name none => .error (.missingValue name.text)
  | .noStatistics => .ok { d with manager.statisticsEnabled := false }
  | .unknown _ => .ok d

def Draft.finish (d : Draft) : Except Error NodeSettings :=
  match d.bind with
  | none => .error .bindRequired
  | some bind =>
    if d.manager.requestTimeout.nanos = 0 then .error .zeroTimeout
    else if d.pool.shortThreads = 0 ∨ d.pool.longThreads = 0 then .error .zeroThreads
    else .ok ⟨bind, d.seeds, d.policy, d.selector, d.manager, d.pool⟩

/-- Arguments are read left to right; the last occurrence of an option counts, and seeds add up. -/
def read (args : List String) : Except Error NodeSettings :=
  ((items args).foldlM Draft.apply .initial).bind Draft.finish

def usage : String :=
  "--bind <addr:port> [--seed <addr:port>]... " ++
    "[--policy always|never|watermark:<n>] [--selector first-available|max-free] " ++
    "[--timeout-ms <n>] [--short-threads <n>] [--long-threads <n>] [--no-statistics]"

/-- What a program tells a user whose arguments it cannot read. -/
def complaint (program : String) (e : Error) : List String :=
  ["Error: " ++ e.message, "Usage: " ++ program ++ " " ++ usage,
    "Example: " ++ program ++ " --bind 127.0.0.1:5000",
    "Example: " ++ program ++ " --bind 127.0.0.1:5010 --seed 127.0.0.1:5000 --policy watermark:1"]

end CommandLine

end Workshare
