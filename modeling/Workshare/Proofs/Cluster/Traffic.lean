import Workshare.Proofs.Cluster.Service

namespace Workshare

def Request.isMembership : Request String → Bool
  | .join _ _ => true
  | .leave _ => true
  | _ => false

/-- Whatever is read from a message is such a request. -/
def Reads (P : Request String → Prop) (op : UInt16) (body : List UInt8) : Prop :=
  ∀ r, Request.decode .string op body = .ok r → P r

/-- What is known of the messages of a cluster: of those that are about to be sent to several targets, of those on
their way to one, and of the comings and goings that a host is told of. -/
structure Traffic where
  cast : Request String → Prop
  sent : String → Request String → Prop
  served : NodeId → Request String → Prop

/-- A host that gets this message is told of no other comings and goings. -/
def Traffic.Allows (T : Traffic) (p : NodeId) (op : UInt16) (body : List UInt8) : Prop :=
  Reads (fun r => r.isMembership → T.served p r) op body

def Exchange.Carries (T : Traffic) (target : String) : Exchange → Prop
  | .travelling _ op body => T.Allows ⟨target⟩ op body
  | .serving _ => True

namespace Task

def Carries (T : Traffic) : Task → Prop
  | .ask _ _ request _ => ∀ p, T.Allows p (request.encode .string).1 (request.encode .string).2
  | .serve n op body => T.Allows n op body
  | .call x _ => x.exchange.Carries T x.target
  | .broadcast _ _ op body => Reads T.cast op body
  | .post target op body _ => Reads (T.sent target) op body
  | .deliver target op body _ => Reads (T.sent target) op body
  | _ => True

/-- The message whose time to arrive has come: where to, and what is in it. -/
def handed? (now : Nat) : Task → Option (String × UInt16 × List UInt8)
  | .post target op body delay => if delay = 0 then some (target, op, body) else none
  | .deliver target op body arrival => if arrival ≤ now then some (target, op, body) else none
  | _ => none

theorem handed?_cases {now : Nat} {task : Task} {target : String} {op : UInt16} {body : List UInt8}
    (handed : task.handed? now = some (target, op, body)) :
    task = .post target op body 0 ∨ ∃ arrival, arrival ≤ now ∧ task = .deliver target op body arrival := by
  cases task with
  | post target' op' body' delay =>
    have handed : (if delay = 0 then some (target', op', body') else none) = some (target, op, body) := handed
    by_cases soon : delay = 0
    · rw [if_pos soon] at handed
      cases handed
      exact .inl (by rw [soon])
    · rw [if_neg soon] at handed
      cases handed
  | deliver target' op' body' arrival =>
    have handed : (if arrival ≤ now then some (target', op', body') else none) = some (target, op, body) := handed
    by_cases soon : arrival ≤ now
    · rw [if_pos soon] at handed
      cases handed
      exact .inr ⟨arrival, soon, rfl⟩
    · rw [if_neg soon] at handed
      cases handed
  | _ => cases handed

/-- A message on its way is of the traffic. -/
theorem Carries.sent {T : Traffic} {task : Task} (carries : task.Carries T) {now : Nat} {target : String} {op : UInt16}
    {body : List UInt8} (handed : task.handed? now = some (target, op, body)) : Reads (T.sent target) op body := by
  rcases handed?_cases handed with rfl | ⟨arrival, _, rfl⟩
  · exact carries
  · exact carries

/-- The message that a host is about to serve. -/
def served? (now : Nat) : Task → Option (NodeId × UInt16 × List UInt8)
  | .serve n op body => some (n, op, body)
  | task => (task.handed? now).map fun m => (⟨m.1⟩, m.2)

end Task

/-- The notices that hosts may hear and the requests that they may call each other with. A request that tells nothing
is always allowed, and what a call tells may be heard by everybody. -/
structure Audience where
  hears : NodeId → Notice → Prop
  calls : Request String → Prop
  mute : ∀ {r : Request String}, r.notice? = none → calls r
  heard : ∀ {r : Request String} {notice : Notice}, calls r → r.notice? = some notice → ∀ p, hears p notice

/-- Everything may be heard. -/
def Audience.any : Audience where
  hears _ _ := True
  calls _ := True
  mute _ := trivial
  heard _ _ _ := trivial

/-- Hosts may hear these notices, and call each other only with requests that tell nothing. -/
def Audience.ofHears (hears : NodeId → Notice → Prop) : Audience where
  hears := hears
  calls r := r.notice? = none
  mute silent := silent
  heard silent told := by rw [silent] at told; cases told

def Heeds (A : Audience) (p : NodeId) (op : UInt16) (body : List UInt8) : Prop :=
  Reads (fun r => ∀ notice, r.notice? = some notice → A.hears p notice) op body

theorem Heeds.of_calls {A : Audience} {p : NodeId} {op : UInt16} {body : List UInt8} (calls : Reads A.calls op body) :
    Heeds A p op body :=
  fun r hd _ hn => A.heard (calls r hd) hn p

def Exchange.Heeds (A : Audience) : Exchange → Prop
  | .travelling _ op body => Reads A.calls op body
  | .serving _ => True

/-- Whoever asked hears only what it may. -/
def Purpose.Heeds (A : Audience) (peer : NodeId) : Purpose → Prop
  | .refresh host _ => ∀ long free, A.hears host (.free peer long free)
  | _ => True

/-- By the calls of this task and by what it brings back nobody hears but what it may. -/
def Task.Heeds (A : Audience) : Task → Prop
  | .ask _ peer request purpose =>
    Reads A.calls (request.encode .string).1 (request.encode .string).2 ∧ purpose.Heeds A peer
  | .call x purpose => x.exchange.Heeds A ∧ purpose.Heeds A x.peer
  | .refresh host peer => ∀ long free, A.hears host (.free peer long free)
  | _ => True

theorem Task.heeds_any (task : Task) : task.Heeds .any := by
  have purposes : ∀ (purpose : Purpose) (peer : NodeId), purpose.Heeds .any peer := by
    intro purpose peer
    cases purpose with
    | refresh host long => exact fun _ _ => trivial
    | _ => trivial
  cases task with
  | ask host peer request purpose => exact ⟨fun _ _ => trivial, purposes _ _⟩
  | call x purpose =>
    obtain ⟨peer, target, limit, deadline, exchange⟩ := x
    refine ⟨?_, purposes _ _⟩
    cases exchange with
    | travelling arrival op body => exact fun _ _ => trivial
    | serving e => trivial
  | refresh host peer => exact fun _ _ => trivial
  | _ => trivial

namespace Cluster

variable {T : Traffic}

theorem plain_freeRequest (long : Bool) : (freeRequest long).isMembership = false := by
  cases long <;> rfl

theorem plain_submit (mode : Mode) (work : Work) : (Request.submit mode work).isMembership = false := by
  cases mode <;> rfl

theorem plain_request {e : Effect} {r : Request String} (h : e.request? = some r) : r.isMembership = false := by
  cases e with
  | announce tag node long free =>
    have hr : updateFreeRequest node long free = r := Option.some.inj h
    rw [← hr]
    cases long <;> rfl
  | delta tag origin counter =>
    have hr : Request.delta origin counter = r := Option.some.inj h
    rw [← hr]
    rfl
  | _ => cases h

/-- Nobody comes or goes by a message that was no such request when it was written. -/
theorem reads_encode {r : Request String} (hr : r.isMembership = false) :
    Reads (·.isMembership = false) (r.encode .string).1 (r.encode .string).2 := by
  intro r' hd
  have same := Request.operation_of_decode hd
  cases r <;> cases r' <;> first | rfl | (cases same; done) | cases hr

/-- Nothing is told by a message that told nothing when it was written. -/
theorem calls_encode {A : Audience} {r : Request String} (hr : r.notice? = none) :
    Reads A.calls (r.encode .string).1 (r.encode .string).2 := by
  intro r' hd
  have same := Request.operation_of_decode hd
  refine A.mute ?_
  cases r <;> cases r' <;> first | rfl | (cases same; done) | cases hr

theorem allowed_encode {r : Request String} (hr : r.isMembership = false) (p : NodeId) :
    T.Allows p (r.encode .string).1 (r.encode .string).2 := by
  intro r' hd member
  rw [reads_encode hr r' hd] at member
  cases member

end Cluster

end Workshare
