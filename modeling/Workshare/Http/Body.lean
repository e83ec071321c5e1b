import Workshare.Form.Tables

namespace Workshare.Http

open Json

/-- The outcome of a submission; only a started work has a start delay. -/
structure Submitted where
  workId : WorkId
  accepted : Bool
  startDelay : Option UInt64
  error : Option String
  deriving DecidableEq, Repr

structure NodeStatistics where
  node : NodeId
  counters : Tally UInt64
  deriving DecidableEq, Repr

/-- The aggregate is the sum over all nodes known here. -/
structure StatisticsBody where
  localNode : NodeId
  replicationEnabled : Bool
  aggregate : Tally UInt64
  nodes : List NodeStatistics
  deriving DecidableEq, Repr

structure CapacityBody where
  entries : List CapacityEntry
  deriving DecidableEq, Repr

structure MembersBody where
  localNode : NodeId
  members : List NodeId
  deriving DecidableEq, Repr

structure Pinged where
  node : NodeId
  roundTrip : Option UInt64
  error : Option String
  deriving DecidableEq, Repr

def Submitted.form : Form Submitted where
  shape := .record [
    WorkId.form.field "work_id",
    Form.flag.field "accepted",
    Form.optionalField .count "start_delay_ms",
    Form.optionalField .text "error"]
  toValue s := .obj ([
    ("work_id", WorkId.form.toValue s.workId),
    ("accepted", .bool s.accepted)] ++
    Form.count.optionalMember "start_delay_ms" s.startDelay ++ Form.text.optionalMember "error" s.error)
  ofValue? v := do
    return ⟨← WorkId.form.get? v "work_id", ← Form.flag.get? v "accepted",
      ← Form.count.getOptional? v "start_delay_ms", ← Form.text.getOptional? v "error"⟩

def NodeStatistics.form : Form NodeStatistics where
  shape := .record [NodeId.form.field "node", Tally.form.field "counters"]
  toValue s := .obj [("node", NodeId.form.toValue s.node), ("counters", Tally.form.toValue s.counters)]
  ofValue? v := do return ⟨← NodeId.form.get? v "node", ← Tally.form.get? v "counters"⟩

def StatisticsBody.form : Form StatisticsBody where
  shape := .record [
    NodeId.form.field "local_node",
    Form.flag.field "replication_enabled",
    Tally.form.field "aggregate",
    NodeStatistics.form.list.field "nodes"]
  toValue s := .obj [
    ("local_node", NodeId.form.toValue s.localNode),
    ("replication_enabled", .bool s.replicationEnabled),
    ("aggregate", Tally.form.toValue s.aggregate),
    ("nodes", NodeStatistics.form.list.toValue s.nodes)]
  ofValue? v := do
    return ⟨← NodeId.form.get? v "local_node", ← Form.flag.get? v "replication_enabled",
      ← Tally.form.get? v "aggregate", ← NodeStatistics.form.list.get? v "nodes"⟩

def CapacityBody.form : Form CapacityBody where
  shape := .record [CapacityEntry.form.list.field "entries"]
  toValue b := .obj [("entries", CapacityEntry.form.list.toValue b.entries)]
  ofValue? v := do return ⟨← CapacityEntry.form.list.get? v "entries"⟩

def MembersBody.form : Form MembersBody where
  shape := .record [NodeId.form.field "local_node", NodeId.form.list.field "members"]
  toValue b := .obj [
    ("local_node", NodeId.form.toValue b.localNode),
    ("members", NodeId.form.list.toValue b.members)]
  ofValue? v := do return ⟨← NodeId.form.get? v "local_node", ← NodeId.form.list.get? v "members"⟩

def Pinged.form : Form Pinged where
  shape := .record [
    NodeId.form.field "node",
    Form.optionalField .count "rtt_micros",
    Form.optionalField .text "error"]
  toValue p := .obj ([("node", NodeId.form.toValue p.node)] ++
    Form.count.optionalMember "rtt_micros" p.roundTrip ++ Form.text.optionalMember "error" p.error)
  ofValue? v := do
    return ⟨← NodeId.form.get? v "node", ← Form.count.getOptional? v "rtt_micros",
      ← Form.text.getOptional? v "error"⟩

end Workshare.Http
