import Workshare.Text.Utf8
import Workshare.Text.Decimal
import Workshare.Double
import Workshare.Text.Quoted
import Workshare.Text.Blank
import Workshare.Duration
import Workshare.Json.Raw
import Workshare.Json.Shape
import Workshare.Table
import Workshare.SocketAddress
import Workshare.NodeId
import Workshare.Counter
import Workshare.Work
import Workshare.Error
import Workshare.Request
import Workshare.Reply
import Workshare.Abort
import Workshare.Capacity
import Workshare.Roster
import Workshare.Settings
import Workshare.Gossip.Message
import Workshare.Form.Gossip
import Workshare.Form.Settings
import Workshare.Http.Body
import Workshare.CommandLine
import Workshare.Notice
import Workshare.Statistics
import Workshare.Policy
import Workshare.Selector
import Workshare.Manager.Basic
import Workshare.Manager.Submission
import Workshare.Executor.Script
import Workshare.Rehearsal
import Workshare.Executor.Lane
import Workshare.Executor.Handler
import Workshare.Executor.Pool
import Workshare.Net.AddressBook
import Workshare.Net.OneWay
import Workshare.Net.Loopback
import Workshare.Cluster.Task
import Workshare.Cluster.Basic
import Workshare.Cluster.Execution
import Workshare.Cluster.Service
import Workshare.Cluster.Step
import Workshare.Cluster.Operations
import Workshare.Http.Interface
import Workshare.Text.Hex
import Workshare.Json.Field
import Workshare.Scenario.Input
import Workshare.Scenario.Report
import Workshare.Gossip.Service
import Workshare.Gossip.Socket
import Workshare.Net.Frame
import Workshare.Net.Correlation
import Workshare.Dashboard
import Workshare.Node
import Workshare.Console
import Workshare.Main
import Workshare.Proofs.Manager.Listeners
import Workshare.Proofs.Manager.Moves
import Workshare.Proofs.Manager.Emissions
import Workshare.Proofs.Manager.Routing
import Workshare.Proofs.Manager.Membership
import Workshare.Proofs.Manager.History
import Workshare.Proofs.Manager.Deltas
import Workshare.Proofs.Text.Utf8
import Workshare.Proofs.Wire.RoundTrip
import Workshare.Proofs.Group.Basic
import Workshare.Proofs.Group.Gathering
import Workshare.Proofs.Group.Replication
import Workshare.Proofs.Text.Decimal
import Workshare.Proofs.Json.Numbers
import Workshare.Proofs.Json.Doubles
import Workshare.Proofs.Json.Values
import Workshare.Proofs.Json.RoundTrip
import Workshare.Proofs.Json.Reading
import Workshare.Proofs.Form.Shapes
import Workshare.Proofs.Form.Documents
import Workshare.Proofs.Wire.Exact
import Workshare.Proofs.Wire.Address
import Workshare.Proofs.Wire.Work
import Workshare.Proofs.Wire.Requests
import Workshare.Proofs.Wire.Canonical
import Workshare.Proofs.Cluster.Frame
import Workshare.Proofs.Cluster.Execution
import Workshare.Proofs.Cluster.Service
import Workshare.Proofs.Cluster.Turns
import Workshare.Proofs.Cluster.Orders
import Workshare.Proofs.Cluster.Deeds
import Workshare.Proofs.Cluster.Courses
import Workshare.Proofs.Cluster.OneHop
import Workshare.Proofs.Cluster.Schedules
import Workshare.Proofs.Cluster.Tidings
import Workshare.Proofs.Manager.Balance
import Workshare.Proofs.Manager.Tallies
import Workshare.Proofs.Net.Standing
import Workshare.Proofs.Net.Calls
import Workshare.Proofs.Net.Replies
import Workshare.Proofs.Cluster.Traffic
import Workshare.Proofs.Cluster.Paces
import Workshare.Proofs.Cluster.Strides
import Workshare.Proofs.Cluster.Walks
import Workshare.Proofs.Cluster.Drifts
import Workshare.Proofs.Cluster.Motions
import Workshare.Proofs.Cluster.Agreement
import Workshare.Proofs.Cluster.Accounts
import Workshare.Proofs.Cluster.Shifts
import Workshare.Proofs.Cluster.Presence
import Workshare.Proofs.Cluster.Loads
import Workshare.Proofs.Cluster.Lasting
import Workshare.Proofs.Manager.Announcements
import Workshare.Proofs.Manager.Relays
import Workshare.Proofs.Manager.Mirror
import Workshare.Proofs.Cluster.Hosts
import Workshare.Proofs.Cluster.Staff
import Workshare.Proofs.Cluster.Candour
import Workshare.Proofs.Manager.Reckoning
import Workshare.Proofs.Cluster.Replicas
import Workshare.Proofs.Gossip.Records
import Workshare.Proofs.Gossip.OwnRecord
import Workshare.Proofs.Gossip.Reports
import Workshare.Proofs.Gossip.Rises
import Workshare.Proofs.Gossip.Merging
import Workshare.Proofs.Wire.Gossip
import Workshare.Proofs.Wire.Formats
import Workshare.Proofs.Gossip.Network
import Workshare.Proofs.Gossip.Suspicions
import Workshare.Proofs.Gossip.Datagrams
import Workshare.Proofs.Gossip.Advances
import Workshare.Proofs.Gossip.Views
import Workshare.Proofs.Workshop.Basic
import Workshare.Proofs.Workshop.Turnouts
import Workshare.Proofs.Workshop.Fates
import Workshare.Proofs.Workshop.Runs
import Workshare.Proofs.Workshop.Accounts
import Workshare.Proofs.Workshop.Ends
import Workshare.Proofs.CommandLine.Startup
import Workshare.Proofs.CommandLine.Reading
import Workshare.Proofs.Manager.Selection
import Workshare.Proofs.Manager.Admissions
import Workshare.Proofs.Manager.Desk
import Workshare.Proofs.Cluster.Inbound
import Workshare.Proofs.Gossip.Duplicates
import Workshare.Proofs.Gossip.Detection
import Workshare.Proofs.Text.Lengths
import Workshare.Proofs.Wire.Faults
import Workshare.Proofs.Wire.Sizes
import Workshare.Proofs.Cluster.Spares
import Workshare.Proofs.Net.Limits
import Workshare.Proofs.Gossip.Answers
import Workshare.Proofs.Text.Blank
import Workshare.Proofs.Dashboard.BaseUrl
