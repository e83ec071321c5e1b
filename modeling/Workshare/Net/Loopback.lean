import Workshare.Error
import Workshare.Table

namespace Workshare

/-- A network inside one program, on which the address of a node is its name. -/
structure Loopback where
  connected : Table String Unit
  /-- Milliseconds on the way to a node. -/
  delays : Table String Nat
  isolated : Table String Unit
  deriving DecidableEq

namespace Loopback

def empty : Loopback :=
  ⟨.empty, .empty, .empty⟩

def connect (n : Loopback) (name : String) : Loopback :=
  { n with connected := n.connected.insert name () }

def disconnect (n : Loopback) (name : String) : Loopback :=
  { n with connected := n.connected.erase name }

def isolate (n : Loopback) (name : String) : Loopback :=
  { n with isolated := n.isolated.insert name () }

def heal (n : Loopback) (name : String) : Loopback :=
  { n with isolated := n.isolated.erase name }

def setDelay (n : Loopback) (name : String) (millis : Nat) : Loopback :=
  { n with delays := n.delays.insert name millis }

def delay (n : Loopback) (name : String) : Nat :=
  (n.delays.get? name).getD 0

/-- A message finds its way at the moment when it is sent. -/
def route (n : Loopback) (sender target : String) : Except ChannelError Unit :=
  if n.isolated.contains sender || n.isolated.contains target then .error (.unreachable target)
  else if n.connected.contains target then .ok ()
  else .error (.unreachable target)

/-- The list of members that every connected node is given. -/
def view (n : Loopback) : List (NodeId × String) :=
  n.connected.keys.map fun name => (⟨name⟩, name)

end Loopback

end Workshare
