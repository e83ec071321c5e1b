import Workshare.Json.Form
import Workshare.Work
import Workshare.NodeId
import Workshare.SocketAddress

namespace Workshare

open Json

def NodeId.form : Form NodeId :=
  Form.text.imap NodeId.mk NodeId.text

def WorkId.form : Form WorkId :=
  Form.text.imap WorkId.mk WorkId.text

def SocketAddress.form : Form SocketAddress where
  shape := .scalar (.checked fun s => (SocketAddress.read? s).isSome)
  toValue a := .str a.text
  ofValue?
    | .str s => SocketAddress.read? s
    | _ => none

/-- Only the handler is required; a work without an id gets `fresh`. -/
def Work.form (fresh : WorkId) : Form Work where
  shape := .record [
    WorkId.form.fieldOr "id" fresh,
    Form.text.field "handler",
    Form.anything.fieldOr "payload" .null,
    Form.flag.fieldOr "distributable" false,
    Form.flag.fieldOr "long_running" false]
  toValue w := .obj [
    ("id", WorkId.form.toValue w.id),
    ("handler", .str w.handler),
    ("payload", w.payload),
    ("distributable", .bool w.distributable),
    ("long_running", .bool w.longRunning)]
  ofValue? v := do
    return {
      id := ← WorkId.form.get? v "id"
      handler := ← Form.text.get? v "handler"
      payload := ← v.member? "payload"
      distributable := ← Form.flag.get? v "distributable"
      longRunning := ← Form.flag.get? v "long_running" }

end Workshare
