import Workshare.Error
import Workshare.Manager.Basic

namespace Workshare

/-- What a submission answers: the delay of a started work, or nothing more than that it went well. -/
abbrev Outcome := Except WorkError (Option UInt64)

namespace Mode

def accepted : Mode → Counter
  | .run => .doWorkAccepted
  | .start => .startWorkAccepted
  | .schedule => .scheduleWorkAccepted

def rejected : Mode → Counter
  | .run => .doWorkRejected
  | .start => .startWorkRejected
  | .schedule => .scheduleWorkRejected

/-- The counter that an answer of the executor moves: only a rejection counts as rejected. -/
def admission (mode : Mode) : Outcome → Counter
  | .error (.rejected _) => mode.rejected
  | _ => mode.accepted

end Mode

/-- Where a work goes. -/
inductive Placement
  | dispatch (transport : Tag) (node : NodeId)
  | execute
  deriving DecidableEq

namespace Manager

/-- Counts a step of the own tally and tells the others. -/
def record (m : Manager) (c : Counter) : Manager :=
  let m := { m with statistics := m.statistics.record c }
  match m.statistics.replicatesTo with
  | some tag => m.emit (.delta tag m.id c)
  | none => m

/-- Publishes the own free workers of one pool: here, then to the others. -/
def announce (m : Manager) (long : Bool) (free : UInt64) : Manager :=
  let m := m.updateFree m.id long free
  match m.transport with
  | some tag => m.emit (.announce tag m.id long free)
  | none => m

/-- Publishes both pools: first here, then to the others. -/
def announceAll (m : Manager) (free : Free) : Manager :=
  let m := (m.updateFree m.id false free.short).updateFree m.id true free.long
  match m.transport with
  | some tag => (m.emit (.announce tag m.id false free.short)).emit (.announce tag m.id true free.long)
  | none => m

/-- Asks for something that only a transport can do. -/
def askTransport (m : Manager) (ask : Tag → Effect) : Manager × Except WorkError Tag :=
  match m.transport with
  | some tag => (m.emit (ask tag), .ok tag)
  | none => (m, .error (.configuration "no transport configured"))

/-- Begins a start; once the transport is up, `announceAll` ends it. -/
def connect (m : Manager) : Manager × Except WorkError Tag :=
  m.askTransport .connect

/-- Begins a stop; once the transport is down, `disband` ends it. -/
def disconnect (m : Manager) : Manager :=
  (m.askTransport .disconnect).1

def ping (m : Manager) (n : NodeId) : Manager × Except WorkError Tag :=
  m.askTransport (.ping · n)

/-- Decides where a work goes. The policy is asked only if a dispatch is possible, the selector only after
the policy agreed. -/
def route (m : Manager) (work : Work) : Manager × Except Abort Placement :=
  if !work.distributable then (m, .ok .execute)
  else
    match m.policy, m.selector, m.transport with
    | some policy, some selector, some transport =>
      let answer := m.asksPolicy policy work
      let m := m.emit (.askPolicy policy.tag work)
      match answer with
      | .error abort => (m, .error abort)
      | .ok false => (m, .ok .execute)
      | .ok true =>
        let choice := selector.rule.select m.surroundings work
        let m := m.emit (.askSelector selector.tag work)
        match choice with
        | .error abort => (m, .error abort)
        | .ok none => (m, .ok .execute)
        | .ok (some node) =>
          if node = m.id then (m, .ok .execute) else (m, .ok (.dispatch transport node))
    | _, _, _ => (m, .ok .execute)

/-- Hands a work to the local executor, which has `free` workers; one of them is about to be taken. -/
def handOver (m : Manager) (free : Free) (mode : Mode) (work : Work) : Manager :=
  let left := free.ofPool work.longRunning
  (m.announce work.longRunning (if left = 0 then 0 else left - 1)).emit (.execute mode work)

/-- The local executor has answered. -/
def settle (m : Manager) (mode : Mode) (outcome : Outcome) : Manager :=
  m.record (mode.admission outcome)

/-- A work has run and its worker is back; the executor has `free` workers now. -/
def complete (m : Manager) (free : Free) (long : Bool) (success : Bool) : Manager :=
  (m.record (if success then .workSuccessful else .workFailed)).announce long (free.ofPool long)

/-- Routes a work and does the first step of where it goes. -/
def submit (m : Manager) (free : Free) (mode : Mode) (work : Work) : Manager × Except Abort Placement :=
  match m.route work with
  | (m, .error abort) => (m, .error abort)
  | (m, .ok .execute) => (m.handOver free mode work, .ok .execute)
  | (m, .ok (.dispatch transport node)) =>
    (m.emit (.dispatch transport mode node work), .ok (.dispatch transport node))

/-- Whoever got a work has answered. What a transport brings back is passed on as it is. -/
def conclude (m : Manager) (mode : Mode) (placement : Placement) (outcome : Outcome) : Manager × Outcome :=
  match placement with
  | .execute => (m.settle mode outcome, outcome)
  | .dispatch _ _ => (m, outcome)

end Manager

end Workshare
