import Workshare.Policy
import Workshare.Selector
import Workshare.Settings
import Workshare.Statistics

namespace Workshare

/-- Who hears the notices of a manager. -/
inductive Listener
  | statistics
  | waterMark (tag : Tag) (mark : WaterMark)
  | external (tag : Tag)
  deriving DecidableEq

def Listener.tag? : Listener → Option Tag
  | .statistics => none
  | .waterMark tag _ => some tag
  | .external tag => some tag

/-- What a manager asks of its strategies, transport, executor and listeners. -/
inductive Effect
  | attach (transport : Tag)
  | connect (transport : Tag)
  | disconnect (transport : Tag)
  | ping (transport : Tag) (node : NodeId)
  | notify (listener : Tag) (notice : Notice)
  | announce (transport : Tag) (node : NodeId) (long : Bool) (free : UInt64)
  | delta (transport : Tag) (origin : NodeId) (counter : Counter)
  | askPolicy (policy : Tag) (work : Work)
  | askSelector (selector : Tag) (work : Work)
  | dispatch (transport : Tag) (mode : Mode) (node : NodeId) (work : Work)
  | execute (mode : Mode) (work : Work)

/-- Who is in the group, who has workers free, and the strategies that decide where a work goes. What a manager
asks of others is collected in its outbox, in order. -/
structure Manager where
  id : NodeId
  settings : ManagerSettings
  policy : Option Policy
  selector : Option Selector
  transport : Option Tag
  listeners : List Listener
  members : Roster
  capacity : CapacityTable
  statistics : Statistics
  outbox : List Effect

namespace Manager

/-- A manager that knows itself alone, with the free workers of its executor. -/
def start (id : NodeId) (settings : ManagerSettings) (free : Free) : Manager where
  id := id
  settings := settings
  policy := none
  selector := none
  transport := none
  listeners := [.statistics]
  members := Roster.empty.insert id
  capacity := CapacityTable.empty.update id free
  statistics := .start id settings.statisticsEnabled
  outbox := []

def emit (m : Manager) (e : Effect) : Manager :=
  { m with outbox := m.outbox ++ [e] }

/-- The effects so far, and the manager without them. -/
def drain (m : Manager) : List Effect × Manager :=
  (m.outbox, { m with outbox := [] })

def surroundings (m : Manager) : Surroundings :=
  ⟨m.id, m.members, m.capacity⟩

def tellOne (m : Manager) (notice : Notice) : Listener → Manager × Listener
  | .statistics => ({ m with statistics := m.statistics.hear notice }, .statistics)
  | .waterMark tag mark => (m.emit (.notify tag notice), .waterMark tag (mark.hear notice))
  | .external tag => (m.emit (.notify tag notice), .external tag)

def tellAll (m : Manager) (notice : Notice) : List Listener → Manager × List Listener
  | [] => (m, [])
  | l :: rest =>
    let (m, l) := m.tellOne notice l
    let (m, rest) := m.tellAll notice rest
    (m, l :: rest)

def tell (m : Manager) (notice : Notice) : Manager :=
  let (m, listeners) := m.tellAll notice m.listeners
  { m with listeners := listeners }

/-- The notices that bring a new listener up to date with a capacity table. -/
def replay (entries : List CapacityEntry) : List Notice :=
  entries.flatMap fun e => [.free e.node false e.free.short, .free e.node true e.free.long]

/-- A listener whose tag is there already is not added again. -/
def addListener (m : Manager) (l : Listener) : Manager :=
  if m.listeners.any (·.tag? = l.tag?) then m
  else
    let (m, told) := (replay m.capacity.entries).foldl (fun (m, l) n => m.tellOne n l) (m, l)
    { m with listeners := m.listeners ++ [told] }

def join (m : Manager) (n : NodeId) : Manager :=
  { m with members := m.members.insert n, capacity := m.capacity.register n }.tell (.join n)

/-- Nobody can make a node leave its own group. -/
def leave (m : Manager) (n : NodeId) : Manager :=
  if n = m.id then m
  else { m with members := m.members.erase n, capacity := m.capacity.remove n }.tell (.leave n)

/-- News about nodes that are no members comes too late and is dropped. -/
def updateFree (m : Manager) (n : NodeId) (long : Bool) (free : UInt64) : Manager :=
  if m.members.contains n then
    { m with capacity := m.capacity.updatePool n long free }.tell (.free n long free)
  else m

def delta (m : Manager) (origin : NodeId) (c : Counter) : Manager :=
  if m.members.contains origin then m.tell (.delta origin c) else m

def hear (m : Manager) : Notice → Manager
  | .join n => m.join n
  | .leave n => m.leave n
  | .free n long count => m.updateFree n long count
  | .delta origin c => m.delta origin c

def disband (m : Manager) : Manager :=
  (m.members.peers m.id).foldl leave m

def setPolicy (m : Manager) (p : Policy) : Manager :=
  let m :=
    match p.rule with
    | .waterMark mark => m.addListener (.waterMark p.tag mark)
    | rule => if rule.listens then m.addListener (.external p.tag) else m
  { m with policy := some p }

def setSelector (m : Manager) (s : Selector) : Manager :=
  let m := if s.rule.listens then m.addListener (.external s.tag) else m
  { m with selector := some s }

def setTransport (m : Manager) (tag : Tag) (listens : Bool) : Manager :=
  let m := m.emit (.attach tag)
  let m := { m with statistics := { m.statistics with transport := some tag } }
  let m := if listens then m.addListener (.external tag) else m
  { m with transport := some tag }

/-- The water mark that was installed under a tag, as it stands now. -/
def waterMark? (m : Manager) (tag : Tag) : Option WaterMark :=
  m.listeners.findSome? fun
    | .waterMark t mark => if t = tag then some mark else none
    | .statistics => none
    | .external _ => none

/-- A water mark answers from what it has heard since it was first installed. -/
def asksPolicy (m : Manager) (p : Policy) (work : Work) : Except Abort Bool :=
  match p.rule with
  | .waterMark mark => .ok (((m.waterMark? p.tag).getD mark).distributes work)
  | rule => rule.distributes work

end Manager

end Workshare
