import PeripheralLayer.Enumerated
import PeripheralLayer.Status
import PeripheralLayer.Pin
import PeripheralLayer.ResultWord
import PeripheralLayer.EventWord
import PeripheralLayer.Text.Shown
import PeripheralLayer.Peer
import PeripheralLayer.Bus.Config
import PeripheralLayer.Bus.Block
import PeripheralLayer.Bus.Mediator
import PeripheralLayer.Bus.Scenario
import PeripheralLayer.Bus.Session
import PeripheralLayer.Bus.Report
import PeripheralLayer.Ring
import PeripheralLayer.Line
import PeripheralLayer.Clock.Counter
import PeripheralLayer.Clock.Timer
import PeripheralLayer.Clock.Bench
import PeripheralLayer.Decimal.Digits
import PeripheralLayer.Decimal.Shortest
import PeripheralLayer.Decimal.Reading
import PeripheralLayer.Text.Imageless
import PeripheralLayer.Text.Quoted
import PeripheralLayer.Json.Problem
import PeripheralLayer.Json.Reader
import PeripheralLayer.Json.QuotedText
import PeripheralLayer.Json.Numeral
import PeripheralLayer.Json.Skipping
import PeripheralLayer.Json.Codec
import PeripheralLayer.Descriptions
import PeripheralLayer.Proofs.ResultWord
import PeripheralLayer.Proofs.Bus.Run
import PeripheralLayer.Proofs.Bus.Phase
import PeripheralLayer.Proofs.Bus.Turn
import PeripheralLayer.Proofs.Bus.Delivery
import PeripheralLayer.Proofs.Bus.Course
import PeripheralLayer.Proofs.Bus.Modes
import PeripheralLayer.Proofs.Bus.Deferral
import PeripheralLayer.Proofs.Bus.Chronicle
import PeripheralLayer.Proofs.Bus.Deal
import PeripheralLayer.Proofs.Bus.Accord
import PeripheralLayer.Proofs.Bus.Accounts
import PeripheralLayer.Proofs.Bus.Custody
import PeripheralLayer.Proofs.Bus.Protocol
import PeripheralLayer.Proofs.Clock.Time
import PeripheralLayer.Proofs.Clock.Reads
import PeripheralLayer.Proofs.Clock.Waits
import PeripheralLayer.Proofs.Clock.Life
import PeripheralLayer.Proofs.Ring.Groups
import PeripheralLayer.Proofs.Bus.Recovery
import PeripheralLayer.Proofs.Json.Descriptions
import PeripheralLayer.Proofs.Json.Gaps
import PeripheralLayer.Proofs.Json.RoundTrip
import PeripheralLayer.Proofs.Json.Integers
import PeripheralLayer.Proofs.Json.FirstProblem
import PeripheralLayer.Proofs.Line.Periods
import PeripheralLayer.Proofs.Bus.Callbacks
import PeripheralLayer.Proofs.Bus.Lag
import PeripheralLayer.Proofs.Bus.Omission
import PeripheralLayer.Proofs.Bus.Rejection
import PeripheralLayer.Proofs.Bus.Returns
import PeripheralLayer.Proofs.Bus.Trails
import PeripheralLayer.Proofs.Bus.Refusals
import PeripheralLayer.Proofs.Bus.Rig
import PeripheralLayer.Proofs.Bus.Startup
import PeripheralLayer.Proofs.Bus.Contents
import PeripheralLayer.Proofs.Bus.Rewording
import PeripheralLayer.Proofs.Bus.Words
import PeripheralLayer.Proofs.Bus.Rates
import PeripheralLayer.Proofs.Ring.Repeats
import PeripheralLayer.Proofs.Json.Truncation
