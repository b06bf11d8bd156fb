import IntPlatform.Library.Formats
import IntPlatform.Library.HeaderValidity
import IntPlatform.Library.OnesComplement
import IntPlatform.T4p4s.HeaderTypes
import IntPlatform.T4p4s.Parsing
import IntPlatform.T4p4s.Controls
import IntPlatform.T4p4s.Switch
import IntPlatform.T4p4s.Effects
import IntPlatform.T4p4s.Checksum
import IntPlatform.T4p4s.ByteEffect
import IntPlatform.T4p4s.Carrying
import IntPlatform.T4p4s.Counters
import IntPlatform.T4p4s.SinkEffect
import IntPlatform.T4p4s.SourceLengths
import IntPlatform.T4p4s.SinkReport
import IntPlatform.Collector.Records
import IntPlatform.Library.SlotTable
import IntPlatform.Collector.ProcessPacket
import IntPlatform.Collector.Outcome
import IntPlatform.EndToEnd.PathReconstruction
import IntPlatform.Library.BoundedQueue
import IntPlatform.Library.CircularIndex
import IntPlatform.Exporter.RingBuffer
import IntPlatform.Library.RoundRobin
import IntPlatform.Exporter.SendData
import IntPlatform.Exporter.Conservation
import IntPlatform.Exporter.UdpSender
import IntPlatform.Exporter.HttpSender
import IntPlatform.Library.MatchAction
import IntPlatform.Library.ChecksumUnit
import IntPlatform.P4c.HeaderTypes
import IntPlatform.P4c.Parsing
import IntPlatform.P4c.Deparser
import IntPlatform.P4c.NodeFields
import IntPlatform.P4c.Effects
import IntPlatform.P4c.Accounting
import IntPlatform.P4c.UdpChecksum
import IntPlatform.P4c.TransitChecksum
import IntPlatform.P4c.SourceChecksum
import IntPlatform.Library.Countdown
import IntPlatform.P4c.HopLimit
import IntPlatform.P4c.OtherTraffic
import IntPlatform.P4c.SinkEffect
import IntPlatform.P4c.IntRemoval
import IntPlatform.P4c.ReportLengths
import IntPlatform.Library.Numerals
import IntPlatform.P4c.GeneratedHeaders
import IntPlatform.EndToEnd.FlowHeader
import IntPlatform.Library.Mealy
import IntPlatform.Collector.Loop
import IntPlatform.Collector.FlowIsolation
import IntPlatform.Library.LineProtocol
import IntPlatform.Exporter.LineProtocol
import IntPlatform.Collector.DelayDecomposition
import IntPlatform.Collector.History
import IntPlatform.Collector.Fields
import IntPlatform.Collector.Iterations
import IntPlatform.Collector.StaleBytes
import IntPlatform.Collector.NodeReads
import IntPlatform.Collector.Arguments
import IntPlatform.Program.Divisions
import IntPlatform.EndToEnd.JitterBounds
import IntPlatform.Exporter.SignedJitter
import IntPlatform.Collector.UpperBits
import IntPlatform.Collector.TimestampMask
import IntPlatform.T4p4s.Transparency
import IntPlatform.T4p4s.SourceSequence
import IntPlatform.Exporter.ReportWidths
import IntPlatform.Library.TextBuffer
import IntPlatform.Exporter.ReportBuffers
import IntPlatform.Exporter.DatagramSize
import IntPlatform.Collector.SequenceWrap
import IntPlatform.Library.Schedules
import IntPlatform.Program.Threads
import IntPlatform.Exporter.Transports
import IntPlatform.Program.Collected
import IntPlatform.Program.Delivery
import IntPlatform.Program.SentText
import IntPlatform.Program.Shutdown
import IntPlatform.Program.Drain
import IntPlatform.Library.Rotation
import IntPlatform.Exporter.Shares
import IntPlatform.Exporter.HttpTransport
import IntPlatform.Exporter.HttpRequests
import IntPlatform.Library.Refusals
import IntPlatform.Program.StartUp
import IntPlatform.P4c.PathDelivery
import IntPlatform.P4c.ReportSequence
import IntPlatform.EndToEnd.Telemetry
import IntPlatform.EndToEnd.StoredTelemetry
import IntPlatform.EndToEnd.UdpBatches
