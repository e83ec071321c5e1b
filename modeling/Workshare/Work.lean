import Workshare.Json.Value

namespace Workshare

structure WorkId where
  text : String
  deriving DecidableEq, Repr, Inhabited, Hashable

/-- A work travels by value: it names a handler that every node registers under the same name. -/
structure Work where
  id : WorkId
  handler : String
  payload : Json.Value
  distributable : Bool
  longRunning : Bool
  deriving Repr, Inhabited

/-- How long the submitter waits: for the end of the work, for its start, or for its acceptance. -/
inductive Mode
  | run
  | start
  | schedule
  deriving DecidableEq, Repr, Inhabited

end Workshare
