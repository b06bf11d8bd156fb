import IntPlatform.EndToEnd.StoredTelemetry
import IntPlatform.Exporter.DatagramSize

namespace IntPlatform.EndToEnd.UdpBatches

open Library.Formats Library.Batching Library.Mealy Library.RoundRobin Library.Schedules
open Collector.Records Collector.ProcessPacket Collector.Arguments Collector.Runs
open Exporter.AddReport Exporter.RingBuffer Exporter.SendData Exporter.Sender Exporter.UdpSender
open Exporter.Transports Exporter.LineProtocol Exporter.DatagramSize Program.Threads Program.Collected
open Program.Delivery Program.SentText Telemetry StoredTelemetry

end IntPlatform.EndToEnd.UdpBatches
