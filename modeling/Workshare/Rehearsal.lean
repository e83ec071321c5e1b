import Workshare.Executor.Script

namespace Workshare

/-- A manager among scripted collaborators: an executor that follows a script, and transports that carry nothing
but can be broken. -/
structure Rehearsal where
  manager : Manager
  script : Script
  /-- Broken transports, and the error of everything that is asked of them. -/
  broken : List (Tag × ChannelError)

namespace Rehearsal

def start (id : NodeId) (settings : ManagerSettings) (script : Script) : Rehearsal :=
  ⟨.start id settings script.free, script, []⟩

def fault? (r : Rehearsal) (tag : Tag) : Option ChannelError :=
  r.broken.lookup tag

def setFault (r : Rehearsal) (tag : Tag) (fault : Option ChannelError) : Rehearsal :=
  let others := r.broken.filter (·.1 ≠ tag)
  { r with broken := (fault.map (tag, ·)).toList ++ others }

/-- What a transport answers that is asked to reach a node. -/
def answer {α : Type} (r : Rehearsal) (tag : Tag) (node : NodeId) (ok : α) : Except WorkError α :=
  match r.fault? tag with
  | some e => .error (.distribution node e)
  | none => .ok ok

/-- What the scripted executor, or a transport, answers about a work that it has got. -/
def fulfil (r : Rehearsal) (mode : Mode) (work : Work) : Placement → Rehearsal × Outcome
  | .execute =>
    let m :=
      match r.script.hook with
      | some success => r.manager.complete r.script.free work.longRunning success
      | none => r.manager
    ({ r with manager := m }, r.script.outcome mode)
  | .dispatch tag node => (r, r.answer tag node (if mode = .start then some 42 else none))

/-- A work that has been handed over comes to its end. -/
def finish (r : Rehearsal) (mode : Mode) (work : Work) (placement : Placement) : Rehearsal × Outcome :=
  let (r, outcome) := r.fulfil mode work placement
  let (m, outcome) := r.manager.conclude mode placement outcome
  ({ r with manager := m }, outcome)

def submitHere (r : Rehearsal) (mode : Mode) (work : Work) : Rehearsal × Outcome :=
  { r with manager := r.manager.handOver r.script.free mode work }.finish mode work .execute

def submit (r : Rehearsal) (mode : Mode) (work : Work) : Rehearsal × Except Abort Outcome :=
  let (m, placement) := r.manager.submit r.script.free mode work
  let r := { r with manager := m }
  match placement with
  | .error abort => (r, .error abort)
  | .ok placement =>
    let (r, outcome) := r.finish mode work placement
    (r, .ok outcome)

def connect (r : Rehearsal) : Rehearsal × Except WorkError Unit :=
  let (m, answer) := r.manager.connect
  match answer with
  | .error e => ({ r with manager := m }, .error e)
  | .ok tag =>
    if (r.fault? tag).isSome then
      ({ r with manager := m }, .error (.configuration "scripted start failure"))
    else ({ r with manager := m.announceAll r.script.free }, .ok ())

def stop (r : Rehearsal) : Rehearsal :=
  { r with manager := r.manager.disconnect.disband }

/-- A scripted peer is seven milliseconds away. -/
def ping (r : Rehearsal) (node : NodeId) : Rehearsal × Except WorkError Duration :=
  let (m, answer) := r.manager.ping node
  ({ r with manager := m }, answer.bind fun tag => r.answer tag node (.ofMillis 7))

end Rehearsal

end Workshare
