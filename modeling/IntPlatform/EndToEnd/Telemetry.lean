import IntPlatform.Collector.FlowIsolation
import IntPlatform.Collector.History
import IntPlatform.EndToEnd.FlowHeader
import Mathlib.Data.List.GetD

namespace IntPlatform.EndToEnd.Telemetry

open Library.Formats Library.SlotTable Library.Mealy T4p4s.HeaderTypes T4p4s.Parsing T4p4s.Controls
open T4p4s.Effects T4p4s.Path T4p4s.Carrying T4p4s.SinkEffect Collector.Records Collector.ProcessPacket
open Collector.Outcome Collector.Loop Collector.FlowIsolation PathReconstruction FlowHeader

/-- A packet of an application, the nodes that it crosses, and the sink that
makes a report of it. -/
structure Passage where
  packet : Datagram
  unmarked : packet.int = none
  path : IntPath
  fits : path.hops.length < maxNodes
  sink : Hop
  isSink : sink.cfg.srcEnable = false ∧ sink.cfg.sinkEnable = true

namespace Passage

variable (p : Passage)

def emitted : Option (List Byte) := (runPath p.path.hops p.packet.frame).bind p.sink.forward

def addresses : BitVec 32 × BitVec 32 := (p.packet.ipv4.srcAddr, p.packet.ipv4.dstAddr)

def number : BitVec 64 := (reportedSeq p.packet.l4).setWidth 64

def nodes : List Hop := p.path.hops.reverse

def first : Hop := p.nodes.headD p.path.source

def arrival : BitVec 64 := ingressTime p.sink

def arrivals : List (BitVec 64) := p.nodes.map ingressTime ++ [p.arrival]

end Passage

section History

variable (earlier : List Passage)

def between (pair : BitVec 32 × BitVec 32) : List Passage := earlier.filter fun q => q.addresses = pair

def lastNumber (pair : BitVec 32 × BitVec 32) : BitVec 64 :=
  countedSeq 0 ((between earlier pair).map Passage.number)

def lastArrival (pair : BitVec 32 × BitVec 32) : BitVec 64 :=
  ((between earlier pair).map Passage.arrival).getLast?.getD 0

/-- When the last packet came that crossed more than i nodes or has its sink at
place i, whatever its addresses. -/
def lastSeen (i : Nat) : BitVec 64 := (earlier.filterMap fun q => q.arrivals[i]?).getLast?.getD 0

/-- The entry for the node at place i. Its link delay is taken from the node
that had the packet after it. -/
def nodeEntry (nodes : List Hop) (i : Nat) (hop : Hop) : TelemetricMeta where
  linkDelay := if i = 0 then 0 else egressTime (nodes.getD (i - 1) hop) - ingressTime hop
  hopDelay := egressTime hop - ingressTime hop
  hopJitter := ingressTime hop - lastSeen earlier i
  hopIndex := BitVec.ofNat 8 i
  hopTimestamp := egressTime hop

def sinkEntry (p : Passage) : TelemetricMeta where
  linkDelay := egressTime p.path.source - p.arrival
  hopDelay := 0
  hopJitter := p.arrival - lastSeen earlier p.nodes.length
  hopIndex := BitVec.ofNat 8 p.nodes.length
  hopTimestamp := p.arrival

def shown (opt : Options) (ts : BitVec 64) : BitVec 64 :=
  if opt.tstmp = 1 then (ts.setWidth 48).setWidth 64 else ts

def telemetry (opt : Options) (p : Passage) : TelemetricHdr where
  srcIp := dottedDecimal p.packet.ipv4.srcAddr
  dstIp := dottedDecimal p.packet.ipv4.dstAddr
  srcPort := p.packet.l4.srcPort
  dstPort := p.packet.l4.dstPort
  origTs := shown opt (ingressTime p.first)
  dstTs := shown opt p.arrival
  protocol := if p.number = 0 then 17 else 6
  seqNum := if p.number = 0 then lastNumber earlier p.addresses + 1 else p.number
  delay := p.arrival - ingressTime p.first
  sinkJitter := p.arrival - lastArrival earlier p.addresses
  reordering := if p.number = 0 then 0 else p.number - lastNumber earlier p.addresses - 1
  nodeMeta := p.nodes.mapIdx (nodeEntry earlier p.nodes) ++ [sinkEntry earlier p]

end History

def telemetries (opt : Options) (passages : List Passage) : List TelemetricHdr :=
  passages.mapIdx fun i p => telemetry (passages.take i) opt p

theorem telemetries_concat (opt : Options) (passages : List Passage) (p : Passage) :
    telemetries opt (passages ++ [p]) = telemetries opt passages ++ [telemetry passages opt p] := by
  rw [telemetries, List.mapIdx_concat, List.take_left, telemetries]
  congr 1
  apply List.mapIdx_eq_mapIdx_iff.mpr
  intro i hi
  rw [List.take_append_of_le_length (Nat.le_of_lt hi)]

section Report

variable (p : Passage)

theorem nodes_length : p.nodes.length = p.path.hops.length := List.length_reverse

theorem nodes_ne_nil : p.nodes ≠ [] := by
  rw [Ne, Passage.nodes, List.reverse_eq_nil_iff]
  exact List.cons_ne_nil _ _

theorem nodes_cons : ∃ rest, p.nodes = p.first :: rest := by
  obtain ⟨first, rest, h⟩ := List.exists_cons_of_ne_nil (nodes_ne_nil p)
  refine ⟨rest, ?_⟩
  rw [Passage.first, h]
  rfl

def Passage.report : Report where
  eth := ethernetCodec.encode { p.packet.ethernet with etherType := 0xffff }
  influx := loaded p.packet p.path.seq 0 p.path.hops p.sink.arrival
  nodes := nodesOf p.nodes
  rest := p.packet.payload
  eth_length := ethernetCodec.encode_length _
  divisible := loaded_hopMetaLen _ _ _ _ _
  announced := by
    rw [loaded_metaCnt _ _ _ _ _ p.fits, nodesOf, List.length_map, nodes_length]
  fits := by
    rw [nodesOf, List.length_map, nodes_length]
    exact p.fits

theorem emitted_report : p.emitted = some p.report.frame := by
  have hfits : p.path.hops.length < 10 := p.fits
  obtain ⟨csum, hrun⟩ := T4p4s.Counters.runPath_delivers p.packet p.unmarked p.path (by omega)
  have hacc := carrying_accepted p.packet p.path.seq csum (onBoard p.path.hops)
    (admissible_of_le _ (by rw [onBoard_length]; omega))
  have hforward := forward_sink p.sink _ hacc p.isSink.1 p.isSink.2
  rw [reportFrame_carrying] at hforward
  rw [Passage.emitted, hrun, Option.bind_some, hforward, reportFront, List.append_assoc,
    List.append_assoc]
  rfl

theorem emitted_reports (passages : List Passage) :
    passages.mapM Passage.emitted = some (passages.map fun p => p.report.frame) := by
  induction passages with
  | nil => rfl
  | cons p passages ih => rw [List.mapM_cons, emitted_report, ih]; rfl

end Report

section Fields

variable (p : Passage)

theorem asMeta_ingress (hop : Hop) : ntoh64 (asMeta hop.nodeMeta).ingressTstamp = ingressTime hop :=
  (ntoh64_eq_swap _).trans (swap_swap be64 _)

theorem asMeta_egress (hop : Hop) : ntoh64 (asMeta hop.nodeMeta).egressTstamp = egressTime hop :=
  (ntoh64_eq_swap _).trans (swap_swap be64 _)

theorem report_dstTs : ntoh64 p.report.influx.ndkTstamp = p.arrival := loaded_time _ _ _ _ _

theorem report_srcIp : inetNtop p.report.influx.srcAddr = dottedDecimal p.packet.ipv4.srcAddr :=
  inetNtop_swap _

theorem report_dstIp : inetNtop p.report.influx.dstAddr = dottedDecimal p.packet.ipv4.dstAddr :=
  inetNtop_swap _

theorem carrying_l4 (seq csum : BitVec 16) (stack : List NodeMeta) :
    (carrying p.packet.toSegments seq stack csum).l4.srcPort = p.packet.l4.srcPort ∧
      (carrying p.packet.toSegments seq stack csum).l4.dstPort = p.packet.l4.dstPort ∧
      reportedSeq (carrying p.packet.toSegments seq stack csum).l4 = reportedSeq p.packet.l4 := by
  rw [carrying]
  cases p.packet.l4 <;> exact ⟨rfl, rfl, rfl⟩

theorem report_srcPort : ntohs p.report.influx.ingressPortId = p.packet.l4.srcPort :=
  (swap_swap be16 _).trans (carrying_l4 p _ _ _).1

theorem report_dstPort : ntohs p.report.influx.egressPortId = p.packet.l4.dstPort :=
  (swap_swap be16 _).trans (carrying_l4 p _ _ _).2.1

theorem report_rawSeq : rawSeq p.report.influx = p.number := by
  have hseq : ntohl p.report.influx.seq = reportedSeq p.packet.l4 :=
    (swap_swap be32 _).trans (carrying_l4 p _ _ _).2.2
  rw [rawSeq, hseq, Passage.number]

theorem report_mapKey (q : Passage) :
    mapKey p.report.influx = mapKey q.report.influx ↔ p.addresses = q.addresses := by
  have hswap (a b : BitVec 32) : be32.swap a = be32.swap b ↔ a = b :=
    ⟨fun h => (swap_swap be32 a).symm.trans ((congrArg be32.swap h).trans (swap_swap be32 b)),
      congrArg be32.swap⟩
  have haddr (q : Passage) : Collector.History.addresses q.report.influx =
      (be32.swap q.packet.ipv4.srcAddr, be32.swap q.packet.ipv4.dstAddr) := rfl
  rw [Collector.History.mapKey_eq_iff, haddr, haddr, Passage.addresses, Passage.addresses, Prod.mk.injEq,
    Prod.mk.injEq, hswap, hswap]

theorem report_stamps : p.report.stamps = p.arrivals := by
  have hnodes : p.report.nodes = p.nodes.map fun hop => asMeta hop.nodeMeta := rfl
  have htimes : (p.report.nodes.map fun m => ntoh64 m.ingressTstamp) = p.nodes.map ingressTime := by
    rw [hnodes, List.map_map]
    exact List.map_congr_left fun hop _ => asMeta_ingress hop
  rw [Report.stamps, Report.dstTs, Collector.Outcome.stamps, report_dstTs, htimes, Passage.arrivals]

end Fields

section Before

variable (opt : Options) (buffer : List Byte) (earlier : List Passage)

def collected : State :=
  ((collector opt).after (State.initial, buffer) (earlier.map Passage.report)).1

theorem pairReports_reports (p : Passage) :
    pairReports (earlier.map Passage.report) (mapKey p.report.influx) =
      (between earlier p.addresses).map Passage.report := by
  rw [pairReports, List.filter_map, between]
  congr 1
  apply List.filter_congr
  intro q _
  exact decide_eq_decide.mpr (report_mapKey q p)

theorem collected_flowMap (p : Passage) :
    (collected opt buffer earlier).flowMap (mapKey p.report.influx) =
      ⟨lastNumber earlier p.addresses, lastArrival earlier p.addresses⟩ := by
  have hnumbers : ((between earlier p.addresses).map Passage.report).map (fun r => rawSeq r.influx) =
      (between earlier p.addresses).map Passage.number := by
    rw [List.map_map]
    exact List.map_congr_left fun q _ => report_rawSeq q
  have harrivals : ((between earlier p.addresses).map Passage.report).map Report.dstTs =
      (between earlier p.addresses).map Passage.arrival := by
    rw [List.map_map]
    exact List.map_congr_left fun q _ => report_dstTs q
  rw [collected, flowMap_after, lastSeq, lastTime, pairReports_reports, hnumbers, harrivals]
  rfl

theorem collected_prevTimestamps (i : Nat) :
    entry (collected opt buffer earlier).prevTimestamps i = lastSeen earlier i := by
  have hzero : entry State.initial.prevTimestamps i = 0 := entry_default i
  have hstamps : (fun q : Passage => q.report.stamps[i]?) = fun q => q.arrivals[i]? := by
    funext q
    rw [report_stamps]
  rw [collected, prevTimestamps_after, lastStamp, List.filterMap_map, hzero, lastSeen, ← hstamps]
  rfl

end Before

section Nodes

variable (t : Timestamps maxNodes) (earlier : List Passage) (hseen : ∀ i, entry t i = lastSeen earlier i)

include hseen

theorem nodeRecords_later (visited : List Hop) (previous : Hop) (rest : List Hop) :
    nodeRecords t (visited.length + 1) (egressTime previous) (nodesOf rest) =
      rest.mapIdx fun k hop =>
        nodeEntry earlier (visited ++ previous :: rest) (visited.length + 1 + k) hop := by
  induction rest generalizing visited previous with
  | nil => rfl
  | cons hop rest ih =>
      have hnext : nextEgress (visited.length + 1) (egressTime previous) (asMeta hop.nodeMeta) =
          egressTime hop := (if_neg (Nat.succ_ne_zero _)).trans (asMeta_egress hop)
      have hentry : nodeRecord t (visited.length + 1) (egressTime previous) (asMeta hop.nodeMeta) =
          nodeEntry earlier (visited ++ previous :: hop :: rest) (visited.length + 1) hop := by
        rw [nodeRecord, nodeEntry, asMeta_ingress, asMeta_egress, hseen, Nat.add_sub_cancel,
          List.getD_append_right _ _ _ _ (Nat.le_refl _), Nat.sub_self, List.getD_cons_zero]
      have hlater := ih (visited ++ [previous]) hop
      rw [List.length_append, List.length_singleton, List.append_assoc] at hlater
      have hnodes : nodesOf (hop :: rest) = asMeta hop.nodeMeta :: nodesOf rest := rfl
      rw [hnodes, nodeRecords, hnext, hentry, hlater, List.mapIdx_cons, Nat.add_zero]
      simp only [List.cons_append, List.nil_append, Nat.add_assoc, Nat.add_comm 1]

theorem nodeRecords_nodes (first : Hop) (rest : List Hop) :
    nodeRecords t 0 (egressTime first) (nodesOf (first :: rest)) =
      (first :: rest).mapIdx (nodeEntry earlier (first :: rest)) := by
  have hentry : nodeRecord t 0 (egressTime first) (asMeta first.nodeMeta) =
      nodeEntry earlier (first :: rest) 0 first := by
    rw [nodeRecord, nodeEntry, asMeta_ingress, asMeta_egress, hseen]
    rfl
  have hlater := nodeRecords_later t earlier hseen [] first rest
  have hnodes : nodesOf (first :: rest) = asMeta first.nodeMeta :: nodesOf rest := rfl
  have hnext : nextEgress 0 (egressTime first) (asMeta first.nodeMeta) = egressTime first := rfl
  rw [hnodes, nodeRecords, hnext, hentry, List.mapIdx_cons]
  congr 1
  refine hlater.trans ?_
  simp only [List.length_nil, List.nil_append, Nat.zero_add, Nat.add_comm 1]

omit hseen in
theorem lastEgress_later (i : Nat) (previous : Hop) (rest : List Hop) :
    lastEgress (i + 1) (egressTime previous) (nodesOf rest) =
      egressTime (rest.getLast?.getD previous) := by
  induction rest generalizing i previous with
  | nil => rfl
  | cons hop rest ih =>
      have hnext : nextEgress (i + 1) (egressTime previous) (asMeta hop.nodeMeta) = egressTime hop :=
        (if_neg (Nat.succ_ne_zero _)).trans (asMeta_egress hop)
      have hnodes : nodesOf (hop :: rest) = asMeta hop.nodeMeta :: nodesOf rest := rfl
      rw [hnodes, lastEgress, hnext, ih, List.getLast?_cons, Option.getD_some]

end Nodes

attribute [ext] TelemetricHdr

theorem cutTimestamps_shown (opt : Options) (hdr : TelemetricHdr) :
    cutTimestamps opt hdr =
      { hdr with origTs := shown opt hdr.origTs, dstTs := shown opt hdr.dstTs } := by
  have hmask (v : BitVec 64) : v &&& 0x0000ffffffffffff = (v.setWidth 48).setWidth 64 := by
    have hval : (0x0000ffffffffffff : BitVec 64).toNat = 2 ^ 48 - 1 := rfl
    rw [← BitVec.toNat_inj, BitVec.toNat_and, hval, Nat.and_two_pow_sub_one_eq_mod, BitVec.toNat_setWidth,
      BitVec.toNat_setWidth]
    omega
  rw [cutTimestamps, shown, shown, hmask, hmask]
  split
  · rfl
  · rfl

section Record

variable (opt : Options) (buffer : List Byte) (earlier : List Passage) (p : Passage)

theorem report_first (rest : List Hop) (h : p.nodes = p.first :: rest) :
    p.report.first buffer = asMeta p.first.nodeMeta := by
  have hfits : p.path.hops.length < 10 := p.fits
  have hframe : p.report.frame = reportFront p.packet p.path.seq 0 p.path.hops p.sink.arrival ++
      p.packet.payload := by
    rw [reportFront, List.append_assoc, List.append_assoc]
    rfl
  obtain ⟨rest', hbuffer⟩ := recvfrom_append (reportFront p.packet p.path.seq 0 p.path.hops p.sink.arrival)
    p.packet.payload buffer (by rw [reportFront_length, pktBufSize]; omega)
  have hlen : (ethernetCodec.encode { p.packet.ethernet with etherType := 0xffff } ++
      intInfluxCodec.encode (loaded p.packet p.path.seq 0 p.path.hops p.sink.arrival)).length = 50 := by
    rw [List.length_append, Codec.encode_length, Codec.encode_length]
    rfl
  have hnodes : nodesOf p.path.hops.reverse = asMeta p.first.nodeMeta :: nodesOf rest := by
    rw [← Passage.nodes, h]
    rfl
  rw [Report.first, hframe, hbuffer, reportFront, ← List.append_assoc (ethernetCodec.encode _),
    List.append_assoc, List.drop_left' hlen, hnodes, frontNode_cons]

theorem source_last (rest : List Hop) (h : p.nodes = p.first :: rest) :
    rest.getLast?.getD p.first = p.path.source := by
  have hlast : p.nodes.getLast? = some p.path.source := by
    rw [Passage.nodes, List.getLast?_reverse]
    rfl
  rw [h, List.getLast?_cons] at hlast
  exact Option.some.inj hlast

theorem record_nodes (st : State) (hseen : ∀ i, entry st.prevTimestamps i = lastSeen earlier i) :
    (recordOf st p.report.influx p.report.nodes (asMeta p.first.nodeMeta)).nodeMeta =
      p.nodes.mapIdx (nodeEntry earlier p.nodes) ++ [sinkEntry earlier p] := by
  obtain ⟨rest, h⟩ := nodes_cons p
  have hlast : lastEgress 0 (egressTime p.first) (nodesOf (p.first :: rest)) = egressTime p.path.source :=
    (lastEgress_later 0 p.first rest).trans (congrArg egressTime (source_last p rest h))
  have hnodes : p.report.nodes = nodesOf p.nodes := rfl
  have hlen : (nodesOf (p.first :: rest)).length = p.nodes.length := by
    rw [h, nodesOf, List.length_map]
  rw [recordOf, hnodes, asMeta_egress, report_dstTs, h, nodeRecords_nodes _ earlier hseen, hlast, hlen, ← h,
    sinkRecord, hseen, sinkEntry]

theorem collector_telemetry :
    (collector opt).out ((collector opt).after (State.initial, buffer) (earlier.map Passage.report))
      p.report = telemetry earlier opt p := by
  obtain ⟨rest, h⟩ := nodes_cons p
  have hflow := collected_flowMap opt buffer earlier p
  have hseen := collected_prevTimestamps opt buffer earlier
  rw [collected] at hflow hseen
  generalize (collector opt).after (State.initial, buffer) (earlier.map Passage.report) = s at hflow hseen ⊢
  have hout : (collector opt).out s p.report = p.report.record opt s.1 s.2 := rfl
  rw [hout, Report.record, report_first s.2 p rest h, cutTimestamps_shown]
  apply TelemetricHdr.ext
  case srcIp => exact (recordOf_srcIp _ _ p.report.nodes (asMeta p.first.nodeMeta)).trans (report_srcIp p)
  case dstIp => exact (recordOf_dstIp _ _ p.report.nodes (asMeta p.first.nodeMeta)).trans (report_dstIp p)
  case srcPort => exact (recordOf_srcPort _ _ p.report.nodes (asMeta p.first.nodeMeta)).trans (report_srcPort p)
  case dstPort => exact (recordOf_dstPort _ _ p.report.nodes (asMeta p.first.nodeMeta)).trans (report_dstPort p)
  case origTs => exact congrArg (shown opt) (asMeta_ingress p.first)
  case dstTs => exact congrArg (shown opt) (report_dstTs p)
  case protocol =>
    refine (recordOf_protocol _ _ p.report.nodes (asMeta p.first.nodeMeta)).trans ?_
    rw [report_rawSeq, telemetry]
  case seqNum =>
    refine (recordOf_seqNum _ _ p.report.nodes (asMeta p.first.nodeMeta)).trans ?_
    rw [report_rawSeq, hflow, seqAfter, telemetry]
  case delay =>
    change ntoh64 p.report.influx.ndkTstamp - ntoh64 (asMeta p.first.nodeMeta).ingressTstamp = _
    rw [report_dstTs, asMeta_ingress, telemetry]
  case sinkJitter =>
    refine (recordOf_sinkJitter _ _ p.report.nodes (asMeta p.first.nodeMeta)).trans ?_
    rw [report_dstTs, hflow, telemetry]
  case reordering =>
    refine (recordOf_reordering _ _ p.report.nodes (asMeta p.first.nodeMeta)).trans ?_
    rw [report_rawSeq, hflow, telemetry]
  case nodeMeta => exact record_nodes earlier p s.1 hseen

theorem outputs_telemetries (passages : List Passage) :
    (collector opt).outputs (State.initial, buffer) (passages.map Passage.report) =
      telemetries opt passages := by
  induction passages using List.reverseRecOn with
  | nil => rfl
  | append_singleton earlier p ih =>
      rw [List.map_append, List.map_singleton, Machine.outputs_concat, ih, collector_telemetry,
        telemetries_concat]

theorem loopProccess_telemetries (h : buffer.length = pktBufSize) (passages : List Passage) :
    loopProccess opt State.initial buffer (passages.map fun p => p.report.frame) =
      .ok (telemetries opt passages) := by
  have hreports : (passages.map fun p => p.report.frame) =
      (passages.map Passage.report).map Report.frame := by
    rw [List.map_map]
    rfl
  rw [hreports, loopProccess_reports opt State.initial buffer _ h, outputs_telemetries]

end Record

/-- What the collector makes of the reports of a network, from the first on, is
the telemetry of the packets that crossed it. -/
theorem network_telemetry (opt : Options) (buffer : List Byte) (h : buffer.length = pktBufSize)
    (passages : List Passage) :
    ∃ reports, passages.mapM Passage.emitted = some reports ∧
      loopProccess opt State.initial buffer reports = .ok (telemetries opt passages) :=
  ⟨_, emitted_reports passages, loopProccess_telemetries opt buffer h passages⟩

def samplePassage (n : Nat) (h : n + 1 < maxNodes) : Passage where
  packet := sampleDatagram
  unmarked := rfl
  path := IntPath.sample n
  fits := by
    rw [IntPath.hops, IntPath.sample, List.length_cons, List.length_replicate]
    exact h
  sink := sampleSink
  isSink := ⟨rfl, rfl⟩

def samplePassages : List Passage := [samplePassage 0 (by decide), samplePassage 1 (by decide)]

theorem network_telemetry_sample :
    (∃ reports, samplePassages.mapM Passage.emitted = some reports ∧
      loopProccess sampleOptions State.initial (List.replicate pktBufSize 0) reports =
        .ok (telemetries sampleOptions samplePassages)) ∧
      (telemetries sampleOptions samplePassages).map (fun r => (r.seqNum, r.sinkJitter)) =
        [(1, 140), (2, 0)] ∧
      (telemetries sampleOptions samplePassages).map (fun r => r.nodeMeta.map TelemetricMeta.hopJitter) =
        [[100, 140], [20, 18446744073709551576, 140]] :=
  ⟨network_telemetry sampleOptions (List.replicate pktBufSize 0) List.length_replicate samplePassages,
    by decide, by decide⟩

end IntPlatform.EndToEnd.Telemetry
