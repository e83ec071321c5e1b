import Workshare.Roster

namespace Workshare

/-- The addresses of the members that a transport knows. Members that came with a view leave with a later one;
members that announced themselves stay until they say so. -/
structure AddressBook (α : Type) where
  self : NodeId
  addresses : Table NodeId α
  viewed : Roster

/-- What a transport reports about a member. -/
inductive MembershipChange
  | joined (node : NodeId)
  | left (node : NodeId)
  deriving DecidableEq, Repr

namespace AddressBook

variable {α : Type}

def start (self : NodeId) : AddressBook α :=
  ⟨self, .empty, .empty⟩

def resolve (b : AddressBook α) (n : NodeId) : Option α :=
  b.addresses.get? n

def members (b : AddressBook α) : List NodeId :=
  b.addresses.keys

def peerAddresses (b : AddressBook α) : List α :=
  b.addresses.entries.filterMap fun (n, a) => if n = b.self then none else some a

/-- The newest address counts; only a new member is reported. -/
def add (b : AddressBook α) (n : NodeId) (a : α) : AddressBook α × List MembershipChange :=
  ({ b with addresses := b.addresses.insert n a }, if b.addresses.contains n then [] else [.joined n])

def remove (b : AddressBook α) (n : NodeId) : AddressBook α × List MembershipChange :=
  ({ b with viewed := b.viewed.erase n, addresses := b.addresses.erase n },
    if b.addresses.contains n then [.left n] else [])

/-- Takes steps in turn and collects what they report. -/
def collect {β : Type} (step : AddressBook α → β → AddressBook α × List MembershipChange)
    (b : AddressBook α) : List β → AddressBook α × List MembershipChange
  | [] => (b, [])
  | x :: rest =>
    let (b, changes) := step b x
    let (b, others) := collect step b rest
    (b, changes ++ others)

def see (b : AddressBook α) (member : NodeId × α) : AddressBook α × List MembershipChange :=
  { b with viewed := b.viewed.insert member.1 }.add member.1 member.2

/-- Of a member that a view lists twice the last address counts. -/
def onView (b : AddressBook α) (view : List (NodeId × α)) : AddressBook α × List MembershipChange :=
  let incoming := Table.ofList view
  let departed := b.viewed.members.filter fun n => !incoming.contains n
  let (b, left) := collect remove b departed
  let (b, joined) := collect see b incoming.entries
  (b, left ++ joined)

def clear (b : AddressBook α) : AddressBook α :=
  .start b.self

end AddressBook

end Workshare
