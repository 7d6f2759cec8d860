import GattServer.Advertisement
import GattServer.Application.Advertising
import GattServer.Application.Basic
import GattServer.Application.Handlers
import GattServer.Application.Operation
import GattServer.Application.Publication
import GattServer.Bus.Call
import GattServer.Bus.Script
import GattServer.Connection.Basic
import GattServer.Connection.Daemon
import GattServer.Connection.Message
import GattServer.Connection.MethodCall
import GattServer.Connection.ObjectTree
import GattServer.Connection.Reception
import GattServer.Directory
import GattServer.Error
import GattServer.FinMap
import GattServer.Flags
import GattServer.Gatt.Basic
import GattServer.Gatt.Node
import GattServer.Introspection
import GattServer.Name
import GattServer.Object
import GattServer.ObjectPath
import GattServer.Properties
import GattServer.Rehearsal.FaultPlan
import GattServer.Rehearsal.Host
import GattServer.Rehearsal.Responder
import GattServer.Rehearsal.Traffic
import GattServer.Request
import GattServer.Settings
import GattServer.Text.Bytes
import GattServer.Text.Printable
import GattServer.Text.Quoted
import GattServer.Uuid
import GattServer.Value
import GattServer.Proofs.Subtree
import GattServer.Proofs.Course.Advertising
import GattServer.Proofs.Course.Publication
import GattServer.Proofs.Held
import GattServer.Proofs.History
import GattServer.Proofs.Steps
import GattServer.Proofs.Views
import GattServer.Proofs.Dangling
import GattServer.Proofs.Leftovers
import GattServer.Proofs.Beside
import GattServer.Proofs.Undo
import GattServer.Proofs.Signals
import GattServer.Proofs.Rounds
import GattServer.Proofs.Exclusion
import GattServer.Proofs.Carriage
import GattServer.Proofs.Display
import GattServer.Proofs.Inquiry
import GattServer.Proofs.Manager
import GattServer.Proofs.Workshop
import GattServer.Proofs.Allocation
import GattServer.Proofs.OwnTree
import GattServer.Proofs.Conveyance
import GattServer.Proofs.Subjects
import GattServer.Proofs.Alone
import GattServer.Proofs.Echo
import GattServer.Proofs.RollBack
import GattServer.Proofs.Neighbours
import GattServer.Proofs.Withdrawal
import GattServer.Proofs.Provenance
import GattServer.Proofs.Rehearsals
import GattServer.Proofs.Uninterrupted
import GattServer.Proofs.Requests
import GattServer.Proofs.Update
import GattServer.Proofs.Pieces
import GattServer.Proofs.Freshness
import GattServer.Proofs.Subscription
import GattServer.Proofs.Ascii
import GattServer.Proofs.Template
import GattServer.Proofs.RoundTrip
import GattServer.Proofs.Alias
import GattServer.Proofs.Children
import GattServer.Proofs.FlagNames
import GattServer.Proofs.PathGrammar
import GattServer.Proofs.AdvertisedData
import GattServer.Proofs.Document
