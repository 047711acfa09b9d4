import BatteryBench.Address.Basic
import BatteryBench.Address.IPv4
import BatteryBench.Cell
import BatteryBench.Channel.Selection
import BatteryBench.Client.Basic
import BatteryBench.Client.Operation
import BatteryBench.Client.Quantity
import BatteryBench.Client.Request
import BatteryBench.Discovery.Found
import BatteryBench.Discovery.Scan
import BatteryBench.Driver.Basic
import BatteryBench.Driver.Scripted
import BatteryBench.Encoding.Utf8
import BatteryBench.Failure
import BatteryBench.Json.Number
import BatteryBench.Json.Printer
import BatteryBench.Json.Reader
import BatteryBench.Json.Record
import BatteryBench.Json.Records
import BatteryBench.Json.Value
import BatteryBench.Link.Basic
import BatteryBench.Link.Datagram
import BatteryBench.Link.Network
import BatteryBench.Link.Serial
import BatteryBench.Link.Stream
import BatteryBench.Link.Tcp
import BatteryBench.Link.Transport
import BatteryBench.Number.Binary32
import BatteryBench.Number.Binary64
import BatteryBench.Number.Decimal
import BatteryBench.Number.Fixed
import BatteryBench.Number.Integer
import BatteryBench.Number.Rounding
import BatteryBench.Number.Shortest
import BatteryBench.Reply
import BatteryBench.Report
import BatteryBench.Session
import BatteryBench.Settings
import BatteryBench.Text.Basic
import BatteryBench.Text.Quoted
import BatteryBench.Proofs.Link.Lines
import BatteryBench.Proofs.Link.Reading
import BatteryBench.Proofs.Channel.Selection
import BatteryBench.Proofs.Client.Conduct
import BatteryBench.Proofs.Session.Conduct
import BatteryBench.Proofs.Client.Commands
import BatteryBench.Proofs.Client.Setpoint
import BatteryBench.Proofs.Client.Writes
import BatteryBench.Proofs.Number.Nearest
import BatteryBench.Proofs.Number.Numeral
import BatteryBench.Proofs.Reply
import BatteryBench.Proofs.Unit.ReadBack
import BatteryBench.Proofs.Client.Shapes
import BatteryBench.Proofs.Link.SendOnly
import BatteryBench.Proofs.Client.LateReplies
import BatteryBench.Proofs.Encoding.Utf8
import BatteryBench.Proofs.Link.Interchange
import BatteryBench.Proofs.Discovery.Scan
import BatteryBench.Proofs.Link.Lifecycle
import BatteryBench.Proofs.Client.Printable
import BatteryBench.Proofs.Link.Frames
import BatteryBench.Proofs.Client.Buffers
import BatteryBench.Proofs.Client.Chains
import BatteryBench.Proofs.Session.Opening
import BatteryBench.Proofs.Settings.Texts
import BatteryBench.Proofs.Link.Datagrams
import BatteryBench.Proofs.Number.Value
import BatteryBench.Proofs.Number.Grammar
import BatteryBench.Proofs.Number.Shortest
import BatteryBench.Proofs.Client.Arguments
import BatteryBench.Proofs.Client.Numbers
import BatteryBench.Proofs.Text.Quotation
import BatteryBench.Proofs.Number.Integer
import BatteryBench.Proofs.Report.ErrorEntry
import BatteryBench.Proofs.Reply.Lists
import BatteryBench.Proofs.Address.IPv4
import BatteryBench.Proofs.Client.NetworkSettings
import BatteryBench.Proofs.Address.Basic
import BatteryBench.Proofs.Json.Forms
import BatteryBench.Proofs.Json.Records
import BatteryBench.Proofs.Channel.Masks
import BatteryBench.Proofs.Unit.Levels
import BatteryBench.Proofs.Reply.Padding
