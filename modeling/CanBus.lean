import CanBus.Command
import CanBus.Main
import CanBus.Node
import CanBus.Proofs.Report.Text
import CanBus.Proofs.Session.BusOff
import CanBus.Proofs.Session.Poll
import CanBus.Proofs.WireFrame
import CanBus.Proofs.Link.Table
import CanBus.Proofs.Link.Prepare
import CanBus.Proofs.Socket.Setup
import CanBus.Proofs.Session.Opening
import CanBus.Proofs.Session.Window
import CanBus.Proofs.Node.Effect
import CanBus.Proofs.Node.World
import CanBus.Proofs.Node.Calls
import CanBus.Proofs.Node.Queue
import CanBus.Proofs.Text.Hex
import CanBus.Proofs.Text.Blank
import CanBus.Proofs.Frame.Text
import CanBus.Proofs.Frame.Grammar
import CanBus.Proofs.Session.Beside
import CanBus.Proofs.Session.Loops
import CanBus.Proofs.Link.Requests
import CanBus.Proofs.Session.Requests
import CanBus.Proofs.Node.Bitrate
import CanBus.Proofs.Frame.Canonical
import CanBus.Proofs.Link.Reconfigure
import CanBus.Proofs.Link.Own
import CanBus.Proofs.Node.Own
import CanBus.Proofs.Kernel.Made
import CanBus.Proofs.Kernel.Transmission
import CanBus.Proofs.Command.Send
import CanBus.Proofs.Netlink.Attribute
import CanBus.Proofs.Netlink.Details
import CanBus.Proofs.Netlink.Received
import CanBus.Proofs.Netlink.Reply
import CanBus.Proofs.Report.Kind
import CanBus.Proofs.Session.Waiting
import CanBus.Proofs.Session.Sending
import CanBus.Proofs.Session.Tuning
import CanBus.Proofs.Command.Bitrate
import CanBus.Proofs.Netlink.Foreign
import CanBus.Proofs.Node.Starts
import CanBus.Proofs.Netlink.Request
import CanBus.Proofs.Link.Acknowledged
import CanBus.Proofs.Netlink.Query
import CanBus.Proofs.Frame.Equality
import CanBus.Proofs.Frame.Spelling
import CanBus.Proofs.Node.Sending
import CanBus.Proofs.Node.Remote
import CanBus.Proofs.Frame.Stuffing
import CanBus.Proofs.Health.Load
import CanBus.Proofs.Health.Overflow
import CanBus.Proofs.Session.Failures
import CanBus.Proofs.Frame.Fields
