import Workshare.Http.Body
import Workshare.Manager.Submission
import Workshare.Text.Hex
import Workshare.Text.Utf8

namespace Workshare.Http

open Json

structure Request where
  method : String
  /-- Path and query as they stand in the request. -/
  target : String
  contentType : String
  body : String
  deriving Repr

structure Response where
  status : Nat
  body : Option Value

inductive Action
  | submit (mode : Mode) (work : Work)
  | statistics
  | capacity
  | members
  | ping (node : NodeId)
  | refuse (status : Nat)

/-- A percent sign that two hex digits do not follow stands for itself. -/
def percentBytes : List Char → List UInt8
  | '%' :: a :: b :: rest =>
    match Hex.value? a, Hex.value? b with
    | some x, some y => (x * 16 + y).toUInt8 :: percentBytes rest
    | _, _ => '%'.toNat.toUInt8 :: percentBytes (a :: b :: rest)
  | c :: rest => Utf8.encodeChar c ++ percentBytes rest
  | [] => []
termination_by cs => cs.length

/-- The decoded text, if its bytes are UTF-8. -/
def percentDecode (s : String) : Option String :=
  (Utf8.decode (percentBytes s.toList)).toOption.map String.ofList

def pathOf (target : String) : String :=
  String.ofList (target.toList.takeWhile fun c => c ≠ '?' && c ≠ '#')

inductive Resource
  | work (mode : Mode)
  | statistics
  | capacity
  | members
  /-- The name is still percent-encoded. -/
  | ping (name : String)

/-- Paths are compared as they stand; the name in a ping is one non-empty segment. -/
def Resource.ofPath? (path : String) : Option Resource :=
  if path = "/work/do" then some (.work .run)
  else if path = "/work/start" then some (.work .start)
  else if path = "/work/schedule" then some (.work .schedule)
  else if path = "/stats" then some .statistics
  else if path = "/capacity" then some .capacity
  else if path = "/members" then some .members
  else
    match path.toList with
    | '/' :: 'p' :: 'i' :: 'n' :: 'g' :: '/' :: c :: rest =>
      if '/' ∈ c :: rest then none else some (.ping (String.ofList (c :: rest)))
    | _ => none

/-- What the parts of a media type may consist of. -/
def isTokenChar (c : Char) : Bool :=
  c.isAlphanum || c ∈ "!#$%&'+-.^_|~".toList || c = Char.ofNat 96

def isQuotedChar (c : Char) : Bool :=
  c = '\t' || (' ' ≤ c && c ≤ '~')

/-- Where the reading of the parameters of a media type stands. -/
inductive ParameterState
  | between
  | name
  | valueStart
  | value
  | quotedStart
  | quoted
  | closed
  | wrong
  deriving DecidableEq

def ParameterState.next (s : ParameterState) (c : Char) : ParameterState :=
  match s with
  | .between => if c = ' ' then .between else if isTokenChar c then .name else .wrong
  | .name => if isTokenChar c then .name else if c = '=' then .valueStart else .wrong
  | .valueStart => if c = '"' then .quotedStart else if isTokenChar c then .value else .wrong
  | .value => if isTokenChar c then .value else if c = ';' then .between else .wrong
  | .quotedStart => if isQuotedChar c && c ≠ '"' then .quoted else .wrong
  | .quoted => if c = '"' then .closed else if isQuotedChar c then .quoted else .wrong
  | .closed => if c = ' ' then .closed else if c = ';' then .between else .wrong
  | .wrong => .wrong

/-- Whether what follows the first semicolon of a media type is well formed. -/
def parametersOk (cs : List Char) : Bool :=
  let final := cs.foldl ParameterState.next .between
  final = .between || final = .valueStart || final = .value || final = .closed

/-- The subtype before its last plus sign, and what stands behind it. -/
def splitSuffix (cs : List Char) : List Char × List Char :=
  match cs.reverse.span (· ≠ '+') with
  | (suffix, _ :: base) => if base.isEmpty then (cs, []) else (base.reverse, suffix.reverse)
  | (_, []) => (cs, [])

/-- JSON, or a media type built on it. -/
def isJson (contentType : String) : Bool :=
  let cs := contentType.toList.map Char.toLower
  let (kind, rest) := cs.span isTokenChar
  match rest with
  | '/' :: rest =>
    let (subtype, rest) := rest.span isTokenChar
    let (base, suffix) := splitSuffix subtype
    let parameters :=
      match rest with
      | [] => true
      | ';' :: ps => parametersOk ps
      | _ => false
    String.ofList kind = "application" && parameters &&
      (String.ofList base = "json" || String.ofList suffix = "json")
  | _ => false

/-- The document that a body starts with counts, whatever follows it. -/
def readWork (fresh : WorkId) (mode : Mode) (r : Request) : Action :=
  if isJson r.contentType then
    match (Work.form fresh).readStart r.body with
    | .ok work => .submit mode work
    | .error .data => .refuse 422
    | .error .malformed => .refuse 400
    | .error .eof => .refuse 400
  else .refuse 415

def isRead (r : Request) : Bool :=
  r.method = "GET" || r.method = "HEAD"

/-- What a request asks for; a work without an id gets `fresh`. -/
def Request.action (fresh : WorkId) (r : Request) : Action :=
  match Resource.ofPath? (pathOf r.target) with
  | none => .refuse 404
  | some (.work mode) => if r.method = "POST" then readWork fresh mode r else .refuse 405
  | some resource =>
    if !isRead r then .refuse 405
    else
      match resource with
      | .statistics => .statistics
      | .capacity => .capacity
      | .members => .members
      | .ping name =>
        match percentDecode name with
        | some node => .ping ⟨node⟩
        | none => .refuse 400
      | .work _ => .refuse 405

def refusal (status : Nat) : Response :=
  ⟨status, none⟩

def submitted (id : WorkId) : Outcome → Response
  | .ok delay => ⟨200, some (Submitted.form.toValue ⟨id, true, delay, none⟩)⟩
  | .error e => ⟨e.status, some (Submitted.form.toValue ⟨id, false, none, some e.message⟩)⟩

def pinged (node : NodeId) : Except WorkError Nat → Response
  | .ok micros => ⟨200, some (Pinged.form.toValue ⟨node, some micros.toUInt64, none⟩)⟩
  | .error e => ⟨e.status, some (Pinged.form.toValue ⟨node, none, some e.message⟩)⟩

def tally (t : Tally Nat) : Tally UInt64 :=
  t.map Nat.toUInt64

def statistics (m : Manager) : StatisticsBody where
  localNode := m.id
  replicationEnabled := m.statistics.enabled
  aggregate := tally m.statistics.aggregate
  nodes := m.statistics.tallies.entries.map fun (n, t) => ⟨n, tally t⟩

/-- The answer to a request that only reads the tables of a manager. -/
def tables (m : Manager) : Action → Response
  | .statistics => ⟨200, some (StatisticsBody.form.toValue (statistics m))⟩
  | .capacity => ⟨200, some (CapacityBody.form.toValue ⟨m.capacity.entries⟩)⟩
  | .members => ⟨200, some (MembersBody.form.toValue ⟨m.id, m.members.members⟩)⟩
  | .refuse status => refusal status
  | .submit _ _ => refusal 404
  | .ping _ => refusal 404

/-- The answer to a HEAD request has no body. -/
def Request.shape (r : Request) (response : Response) : Response :=
  if r.method = "HEAD" then { response with body := none } else response

end Workshare.Http
