import Ecapplog.Foundations.PartialRun
import Ecapplog.Foundations.Overflow
import Ecapplog.Foundations.SlidingWindow
import Ecapplog.Foundations.JsonText
import Ecapplog.Foundations.Framing
import Ecapplog.Foundations.Monitor
import Ecapplog.Foundations.Interleaving
import Ecapplog.Foundations.Gregorian
import Ecapplog.Foundations.Decimal
import Ecapplog.Foundations.KeyedMap
import Ecapplog.Record
import Ecapplog.Timestamp
import Ecapplog.Calendar
import Ecapplog.TimestampText
import Ecapplog.Proto
import Ecapplog.Priority
import Ecapplog.Payload
import Ecapplog.Builders
import Ecapplog.Decoder
import Ecapplog.Receivers
import Ecapplog.Queue
import Ecapplog.Connect
import Ecapplog.Client
import Ecapplog.Effect
import Ecapplog.Worker
import Ecapplog.Delivery
import Ecapplog.ByteStream
import Ecapplog.FrameLimit
import Ecapplog.MockServer
import Ecapplog.EndToEnd
import Ecapplog.Incidents
import Ecapplog.Sizes
import Ecapplog.Callers
import Ecapplog.Drain
import Ecapplog.Wakeups
import Ecapplog.Exits
import Ecapplog.Dues
import Ecapplog.Losses
import Ecapplog.Backlog
import Ecapplog.Progress
import Ecapplog.Closed
import Ecapplog.Graceful
import Ecapplog.Growth
import Ecapplog.Clones
import Ecapplog.Pace
import Ecapplog.Callback
import Ecapplog.Deadline
import Ecapplog.Ceiling
import Ecapplog.Visitor
import Ecapplog.TracingLayer
import Ecapplog.Layers
import Ecapplog.Source
import Ecapplog.MessageField
import Ecapplog.SpanFields
import Ecapplog.Isolation
import Ecapplog.LogLogger
import Ecapplog.Pipeline
import Ecapplog.Traced
import Ecapplog.Accounting
import Ecapplog.Console
import Ecapplog.Settling
