import Workshare.Form.Work
import Workshare.Capacity
import Workshare.Counter
import Workshare.Reply

namespace Workshare

open Json

def Counter.form : Form Counter where
  shape := .choice (Counter.all.map fun c => (c.name, none))
  toValue c := .str c.name
  ofValue?
    | .str s => Counter.ofName? s
    | _ => none

def Counter.fieldName : Counter → String
  | .doWorkAccepted => "do_work_accepted"
  | .doWorkRejected => "do_work_rejected"
  | .startWorkAccepted => "start_work_accepted"
  | .startWorkRejected => "start_work_rejected"
  | .scheduleWorkAccepted => "schedule_work_accepted"
  | .scheduleWorkRejected => "schedule_work_rejected"
  | .workSuccessful => "work_successful"
  | .workFailed => "work_failed"

namespace Tally

/-- A tally with a value for each counter, if there is one for all of them. -/
def ofFn? {α : Type} (f : Counter → Option α) : Option (Tally α) := do
  return ⟨← f .doWorkAccepted, ← f .doWorkRejected, ← f .startWorkAccepted, ← f .startWorkRejected,
    ← f .scheduleWorkAccepted, ← f .scheduleWorkRejected, ← f .workSuccessful, ← f .workFailed⟩

def form : Form (Tally UInt64) where
  shape := .record (Counter.all.map fun c => Form.count.field c.fieldName)
  toValue t := .obj (Counter.all.map fun c => (c.fieldName, Form.count.toValue (t.get c)))
  ofValue? v := ofFn? fun c => Form.count.get? v c.fieldName

end Tally

def Reply.form : Form Reply where
  shape := .choice [("Done", none), ("Value", some Form.count.shape)]
  toValue
    | .done => .str "Done"
    | .value n => .obj [("Value", Form.count.toValue n)]
  ofValue?
    | .str "Done" => some .done
    | .obj [("Value", v)] => (Form.count.ofValue? v).map .value
    | _ => none

def CapacityEntry.form : Form CapacityEntry where
  shape := .record [
    NodeId.form.field "node",
    Form.count.field "short_running_free",
    Form.count.field "long_running_free"]
  toValue e := .obj [
    ("node", NodeId.form.toValue e.node),
    ("short_running_free", Form.count.toValue e.free.short),
    ("long_running_free", Form.count.toValue e.free.long)]
  ofValue? v := do
    return ⟨← NodeId.form.get? v "node",
      ⟨← Form.count.get? v "short_running_free", ← Form.count.get? v "long_running_free"⟩⟩

end Workshare
