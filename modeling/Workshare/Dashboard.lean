import Workshare.Json.Shape
import Workshare.Text.Blank

namespace Workshare.Dashboard

open Json

/-- The configured URL of a node, without slashes at its end. -/
def configuredUrl (url : String) : String :=
  String.ofList (Blank.trimEnd (· = '/') url.toList)

def hasScheme (url : String) : Bool :=
  url.startsWith "http://" || url.startsWith "https://"

/-- The URL of the node to call. Blanks around an override and slashes at its end are dropped, a missing
scheme is HTTP; a blank override means the configured node, as it stands. -/
def resolveUrl (nodeUrl : String) (override : Option String) : String :=
  let trimmed := String.ofList (Blank.trim (override.getD nodeUrl).toList)
  if trimmed.isEmpty then nodeUrl
  else configuredUrl (if hasScheme trimmed then trimmed else "http://" ++ trimmed)

structure Call where
  post : Bool
  url : String
  body : Option Value

/-- What the dashboard answers: what the node answered, or a refusal of its own. -/
inductive Reply
  | relayed (status : Nat) (body : Value)
  | refused (status : Nat) (message : String)

def modes : List String :=
  ["do", "start", "schedule"]

/-- The call that submits a work; without a mode the work is scheduled. -/
def submit (nodeUrl : String) (mode override : Option String) (work : Value) : Except Reply Call :=
  let mode := mode.getD "schedule"
  if mode ∈ modes then .ok ⟨true, resolveUrl nodeUrl override ++ "/work/" ++ mode, some work⟩
  else .error (.refused 400 ("unknown mode: " ++ mode))

def get (nodeUrl : String) (override : Option String) (path : String) : Call :=
  ⟨false, resolveUrl nodeUrl override ++ path, none⟩

def ping (nodeUrl target : String) (override : Option String) : Call :=
  get nodeUrl override ("/ping/" ++ String.ofList (Blank.trim target.toList))

/-- A body that is no JSON is replaced by a note. -/
def relay (status : Nat) (body : String) : Reply :=
  match Value.read body with
  | .ok v => .relayed status v
  | .error _ => .relayed status (.obj [("error", .str "invalid json")])

def unreachable (message : String) : Reply :=
  .refused 502 message

end Workshare.Dashboard
