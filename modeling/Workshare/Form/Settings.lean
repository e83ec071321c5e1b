import Workshare.Json.Form
import Workshare.Settings

namespace Workshare

open Json

def Duration.form : Form Duration :=
  Form.count.imap (fun n => .ofMillis n.toNat) (fun d => d.millis.toUInt64)

def ManagerSettings.form : Form ManagerSettings where
  shape := .record [
    Form.flag.fieldOr "statistics_enabled" ManagerSettings.default.statisticsEnabled,
    Duration.form.fieldOr "request_timeout" ManagerSettings.default.requestTimeout]
  toValue s := .obj [
    ("statistics_enabled", .bool s.statisticsEnabled),
    ("request_timeout", Duration.form.toValue s.requestTimeout)]
  ofValue? v := do
    return ⟨← Form.flag.get? v "statistics_enabled", ← Duration.form.get? v "request_timeout"⟩

def PoolSettings.form : Form PoolSettings where
  shape := .record [
    Form.count.fieldOr "short_running_threads" PoolSettings.default.shortThreads,
    Form.count.fieldOr "long_running_threads" PoolSettings.default.longThreads,
    Duration.form.fieldOr "start_timeout" PoolSettings.default.startTimeout]
  toValue s := .obj [
    ("short_running_threads", Form.count.toValue s.shortThreads),
    ("long_running_threads", Form.count.toValue s.longThreads),
    ("start_timeout", Duration.form.toValue s.startTimeout)]
  ofValue? v := do
    return ⟨← Form.count.get? v "short_running_threads", ← Form.count.get? v "long_running_threads",
      ← Duration.form.get? v "start_timeout"⟩

def PolicyChoice.form : Form PolicyChoice where
  shape := .choice [("Always", none), ("Never", none), ("WaterMark", some Form.count.shape)]
  toValue
    | .always => .str "Always"
    | .never => .str "Never"
    | .waterMark level => .obj [("WaterMark", Form.count.toValue level)]
  ofValue?
    | .str "Always" => some .always
    | .str "Never" => some .never
    | .obj [("WaterMark", v)] => (Form.count.ofValue? v).map .waterMark
    | _ => none

def SelectorChoice.form : Form SelectorChoice where
  shape := .choice [("FirstAvailable", none), ("MaxFreeWorkers", none)]
  toValue
    | .firstAvailable => .str "FirstAvailable"
    | .maxFreeWorkers => .str "MaxFreeWorkers"
  ofValue?
    | .str "FirstAvailable" => some .firstAvailable
    | .str "MaxFreeWorkers" => some .maxFreeWorkers
    | _ => none

end Workshare
