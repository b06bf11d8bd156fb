import IntPlatform.EndToEnd.PathReconstruction

namespace IntPlatform.EndToEnd.FlowHeader

open Library.Formats Library.HeaderValidity T4p4s.HeaderTypes T4p4s.Parsing T4p4s.Controls T4p4s.Effects
open T4p4s.Path T4p4s.SinkEffect Collector.Records Collector.ProcessPacket Collector.Outcome
open PathReconstruction

def dottedDecimal (addr : BitVec 32) : List Char :=
  List.intercalate ['.'] ((be32.encode addr).map fun b => Nat.toDigits 10 b.toNat)

/-- The record tells the flow of the frame s that the sink has reported, and
when it arrived there. -/
structure FlowDecoded (s : Segments) (sink : Hop) (record : TelemetricHdr) : Prop where
  srcIp : record.srcIp = dottedDecimal s.ipv4.srcAddr
  dstIp : record.dstIp = dottedDecimal s.ipv4.dstAddr
  srcPort : record.srcPort = s.l4.srcPort
  dstPort : record.dstPort = s.l4.dstPort
  udp : record.protocol = 17 ↔ s.l4.udp?.isSome
  tcp : record.protocol = 6 ↔ s.l4.tcp?.isSome
  seqNum : ∀ h, s.l4 = .tcp h → record.seqNum = h.seqNum.setWidth 64
  dstTs : record.dstTs = ingressTime sink

theorem inetNtop_swap (addr : BitVec 32) : inetNtop (be32.swap addr) = dottedDecimal addr := by
  rw [inetNtop, le32_swap, dottedDecimal]

section Sink

variable (sink : Hop) (s : Segments)

def reported : IntInflux := asInflux (reportHeader sink.arrival (sinkParts sink.cfg sink.reg1 s))

theorem reported_srcAddr : inetNtop (reported sink s).srcAddr = dottedDecimal s.ipv4.srcAddr := by
  have h : (sinkParts sink.cfg sink.reg1 s).ipv4.srcAddr = s.ipv4.srcAddr := by
    rw [sinkParts]
    split <;> rfl
  rw [← h]
  exact inetNtop_swap _

theorem reported_dstAddr : inetNtop (reported sink s).dstAddr = dottedDecimal s.ipv4.dstAddr := by
  have h : (sinkParts sink.cfg sink.reg1 s).ipv4.dstAddr = s.ipv4.dstAddr := by
    rw [sinkParts]
    split <;> rfl
  rw [← h]
  exact inetNtop_swap _

theorem sinkParts_l4 :
    (sinkParts sink.cfg sink.reg1 s).l4.srcPort = s.l4.srcPort ∧
      (sinkParts sink.cfg sink.reg1 s).l4.dstPort = s.l4.dstPort ∧
      reportedSeq (sinkParts sink.cfg sink.reg1 s).l4 = reportedSeq s.l4 := by
  obtain ⟨ethernet, ipv4, l4, int, payload⟩ := s
  rw [sinkParts]
  cases sink.cfg.srcEnable <;> cases l4 <;> exact ⟨rfl, rfl, rfl⟩

theorem reported_ports :
    ntohs (reported sink s).ingressPortId = s.l4.srcPort ∧
      ntohs (reported sink s).egressPortId = s.l4.dstPort := by
  obtain ⟨hsrc, hdst, -⟩ := sinkParts_l4 sink s
  exact ⟨(swap_swap be16 _).trans hsrc, (swap_swap be16 _).trans hdst⟩

theorem reported_seq : ntohl (reported sink s).seq = reportedSeq s.l4 :=
  (swap_swap be32 _).trans (sinkParts_l4 sink s).2.2

theorem reported_time : ntoh64 (reported sink s).ndkTstamp = ingressTime sink :=
  (ntoh64_eq_swap _).trans (swap_swap be64 _)

theorem reported_meta_source (hsrc : sink.cfg.srcEnable = true) :
    (reported sink s).hopMetaLen = 6 ∧ (reported sink s).metaLen = 0 := by
  rw [reported, sinkParts, hsrc]
  exact ⟨show (0#3 ++ 6#5 : BitVec 8) = 6 by decide, show (3#8 - 3 : BitVec 8) = 0 by decide⟩

theorem reported_meta (shim : Intl4Shim) (header : IntHeader) (hint : s.int = some (shim, header))
    (hsrc : sink.cfg.srcEnable = false) (hlen : 3#8 ≤ shim.len) :
    ((reported sink s).hopMetaLen ≠ 0 ↔ header.hopMetadataLen ≠ 0) ∧
      ((reported sink s).metaLen / (reported sink s).hopMetaLen).toNat =
        (shim.len.toNat - 3) / header.hopMetadataLen.toNat := by
  have hm : (reported sink s).metaLen = shim.len - 3 := by
    rw [reported, sinkParts, hsrc]
    simp [asInflux, reportHeader, hint]
  have hh : (reported sink s).hopMetaLen = 0#3 ++ header.hopMetadataLen := by
    rw [reported, sinkParts, hsrc]
    simp [asInflux, reportHeader, hint]
  have hz : ∀ v : BitVec 5, (0#3 ++ v : BitVec 8).toNat = v.toNat := by decide
  have hs : (shim.len - 3).toNat = shim.len.toNat - 3 := by
    rw [BitVec.le_def] at hlen
    bv_omega
  rw [hm, hh, BitVec.toNat_udiv, hz, hs]
  refine ⟨not_congr ?_, rfl⟩
  rw [← BitVec.toNat_inj, hz, ← BitVec.toNat_inj]
  rfl

end Sink

theorem recvfrom_report (sink : Hop) (s : Segments) (buffer : List Byte) (h : buffer.length = pktBufSize) :
    ∃ eth p, eth.length = 14 ∧ reach * intMetaCodec.size ≤ p.length ∧
      recvfrom (reportFrame sink.arrival (sinkParts sink.cfg sink.reg1 s)) buffer =
        eth ++ (intInfluxCodec.encode (reported sink s) ++ p) := by
  have hsize : ethernetCodec.size + intInfluxCodec.size + reach * intMetaCodec.size ≤ pktBufSize := by
    decide
  rw [reportFrame, ← encode_asInflux, ← List.append_assoc]
  obtain ⟨p, hp⟩ := recvfrom_append (ethernetCodec.encode
    { (sinkParts sink.cfg sink.reg1 s).ethernet with etherType := 0xffff } ++
      intInfluxCodec.encode (reported sink s)) (sinkParts sink.cfg sink.reg1 s).payload buffer (by
    rw [List.length_append, Codec.encode_length, Codec.encode_length]
    exact Nat.le_trans (Nat.le_add_right _ _) hsize)
  have hlen := congrArg List.length hp
  rw [recvfrom_length _ _ h, List.length_append, List.length_append, Codec.encode_length,
    Codec.encode_length] at hlen
  refine ⟨_, p, ethernetCodec.encode_length _, ?_, hp.trans (List.append_assoc _ _ _)⟩
  omega

section Record

variable (sink : Hop) (s : Segments) (opt : Options) (st : State) (nodes : List IntMeta) (first : IntMeta)

theorem cutTimestamps_flow (hdr : TelemetricHdr) :
    (cutTimestamps opt hdr).srcIp = hdr.srcIp ∧ (cutTimestamps opt hdr).dstIp = hdr.dstIp ∧
      (cutTimestamps opt hdr).srcPort = hdr.srcPort ∧ (cutTimestamps opt hdr).dstPort = hdr.dstPort ∧
      (cutTimestamps opt hdr).protocol = hdr.protocol ∧ (cutTimestamps opt hdr).seqNum = hdr.seqNum := by
  rw [cutTimestamps_eq]
  exact ⟨rfl, rfl, rfl, rfl, rfl, rfl⟩

theorem cutTimestamps_dstTs (hdr : TelemetricHdr) :
    (cutTimestamps opt hdr).dstTs = hdr.dstTs ↔ (opt.tstmp = 1 → hdr.dstTs.toNat < 2 ^ 48) := by
  rw [cutTimestamps, ← and_mask_eq_self]
  by_cases ht : opt.tstmp = 1
  · rw [if_pos ht]
    exact ⟨fun h _ => h, fun h => h ht⟩
  · rw [if_neg ht]
    exact iff_of_true rfl fun h => absurd h ht

theorem setWidth_eq_zero (v : BitVec 32) : v.setWidth 64 = 0 ↔ v = 0 := by
  rw [← BitVec.toNat_inj, ← BitVec.toNat_inj, BitVec.toNat_setWidth_of_le (by decide)]
  rfl

theorem rawSeq_reported : rawSeq (reported sink s) = (reportedSeq s.l4).setWidth 64 := by
  rw [rawSeq, reported_seq]

theorem flowDecoded_iff :
    FlowDecoded s sink (cutTimestamps opt (recordOf st (reported sink s) nodes first)) ↔
      (∀ h, s.l4 = .tcp h → h.seqNum ≠ 0) ∧ (opt.tstmp = 1 → (ingressTime sink).toNat < 2 ^ 48) := by
  obtain ⟨hsrc, hdst, hsp, hdp, hproto, hseq⟩ :=
    cutTimestamps_flow opt (recordOf st (reported sink s) nodes first)
  have hts := cutTimestamps_dstTs opt (recordOf st (reported sink s) nodes first)
  rw [recordOf_dstTs, reported_time] at hts
  simp only [recordOf_protocol, rawSeq_reported, setWidth_eq_zero] at hproto
  simp only [recordOf_seqNum, rawSeq_reported, seqAfter, setWidth_eq_zero] at hseq
  constructor
  · intro hd
    refine ⟨?_, hts.mp hd.dstTs⟩
    intro h hl4 hz
    have h6 := hd.tcp.mpr (by rw [hl4]; rfl)
    rw [hproto, hl4, reportedSeq, if_pos hz] at h6
    exact absurd h6 (by decide)
  · rintro ⟨hne, ht⟩
    have hl4 : ∀ h, s.l4 = .tcp h → reportedSeq s.l4 ≠ 0 := by
      intro h hl4
      rw [hl4]
      exact hne h hl4
    constructor
    case srcIp => rw [hsrc, recordOf_srcIp, reported_srcAddr]
    case dstIp => rw [hdst, recordOf_dstIp, reported_dstAddr]
    case srcPort => rw [hsp, recordOf_srcPort, (reported_ports sink s).1]
    case dstPort => rw [hdp, recordOf_dstPort, (reported_ports sink s).2]
    case dstTs => exact hts.mpr ht
    case seqNum =>
        intro h hh
        rw [hseq, if_neg (hl4 h hh), hh]
        rfl
    case udp =>
        rw [hproto]
        cases hh : s.l4 with
        | udp u => exact iff_of_true rfl rfl
        | tcp u =>
            rw [← hh, if_neg (hl4 u hh), hh]
            exact iff_of_false (by decide) Bool.false_ne_true
    case tcp =>
        rw [hproto]
        cases hh : s.l4 with
        | udp u => exact iff_of_false (show (17 : BitVec 8) ≠ 6 by decide) Bool.false_ne_true
        | tcp u =>
            rw [← hh, if_neg (hl4 u hh), hh]
            exact iff_of_true rfl rfl

end Record

section Sink

variable (sink : Hop) (d : Datagram) (shim : Intl4Shim) (header : IntHeader)
  (hint : d.int = some (shim, header)) (hsink : sink.cfg.sinkEnable = true) (opt : Options) (st : State)
  (buffer : List Byte) (hbuf : buffer.length = pktBufSize)

include hint

theorem reported_nodes :
    (reported sink d.toSegments).hopMetaLen ≠ 0 ∧
        ((reported sink d.toSegments).metaLen / (reported sink d.toSegments).hopMetaLen).toNat < maxNodes ↔
      sink.cfg.srcEnable = true ∨
        header.hopMetadataLen ≠ 0 ∧
          (shim.len.toNat - 3) / header.hopMetadataLen.toNat < maxNodes := by
  cases hsrc : sink.cfg.srcEnable with
  | true =>
      obtain ⟨hh, hm⟩ := reported_meta_source sink d.toSegments hsrc
      rw [hh, hm]
      exact iff_of_true (by decide) (.inl rfl)
  | false =>
      have hlen := (d.accepted.supported _ hint).1
      obtain ⟨hh, hm⟩ := reported_meta sink d.toSegments shim header hint hsrc hlen
      rw [hh, hm]
      constructor
      · exact .inr
      · rintro (h | h)
        · cases h
        · exact h

include hsink hbuf

theorem decoded_conditions
    (h : ∃ report record st', sink.forward d.frame = some report ∧
      processPacket opt st (recvfrom report buffer) = .ok (record, st') ∧
      FlowDecoded d.toSegments sink record) :
    (sink.cfg.srcEnable = true ∨ header.hopMetadataLen ≠ 0 ∧
        (shim.len.toNat - 3) / header.hopMetadataLen.toNat < maxNodes) ∧
      (∀ h, d.l4 = .tcp h → h.seqNum ≠ 0) ∧
      (opt.tstmp = 1 → (ingressTime sink).toNat < 2 ^ 48) := by
  obtain ⟨report, record, st', hf, hr, hd⟩ := h
  obtain ⟨eth, p, heth, hp, hrec⟩ := recvfrom_report sink d.toSegments buffer hbuf
  rw [forward_sink_parts sink d.toSegments d.accepted hsink] at hf
  rw [← Option.some.inj hf, hrec] at hr
  obtain ⟨hlen, hlt, heq⟩ := (processPacket_eq_ok opt st eth p _ heth hp _).mp hr
  rw [(Prod.mk.inj heq).1] at hd
  exact ⟨(reported_nodes sink d shim header hint).mp ⟨hlen, hlt⟩,
    (flowDecoded_iff sink d.toSegments opt st _ _).mp hd⟩

theorem decoded_of_conditions
    (hnodes : sink.cfg.srcEnable = true ∨ header.hopMetadataLen ≠ 0 ∧
      (shim.len.toNat - 3) / header.hopMetadataLen.toNat < maxNodes)
    (hseq : ∀ h, d.l4 = .tcp h → h.seqNum ≠ 0)
    (hcut : opt.tstmp = 1 → (ingressTime sink).toNat < 2 ^ 48) :
    ∃ report record st', sink.forward d.frame = some report ∧
      processPacket opt st (recvfrom report buffer) = .ok (record, st') ∧
      FlowDecoded d.toSegments sink record := by
  obtain ⟨eth, p, heth, hp, hrec⟩ := recvfrom_report sink d.toSegments buffer hbuf
  obtain ⟨hlen, hlt⟩ := (reported_nodes sink d shim header hint).mpr hnodes
  have hr := (processPacket_eq_ok opt st eth p _ heth hp _).mpr ⟨hlen, hlt, rfl⟩
  rw [← hrec] at hr
  exact ⟨_, _, _, forward_sink_parts sink d.toSegments d.accepted hsink, hr,
    (flowDecoded_iff sink d.toSegments opt st _ _).mpr ⟨hseq, hcut⟩⟩

/-- The record of an emitted report tells the flow of the frame exactly when
the collector can divide the report into nodes, the sequence number does not
stand for UDP, and the 48-bit mode keeps the timestamp. -/
theorem flow_decoded_iff :
    (∃ report record st', sink.forward d.frame = some report ∧
        processPacket opt st (recvfrom report buffer) = .ok (record, st') ∧
        FlowDecoded d.toSegments sink record) ↔
      (sink.cfg.srcEnable = true ∨ header.hopMetadataLen ≠ 0 ∧
        (shim.len.toNat - 3) / header.hopMetadataLen.toNat < maxNodes) ∧
      (∀ h, d.l4 = .tcp h → h.seqNum ≠ 0) ∧
      (opt.tstmp = 1 → (ingressTime sink).toNat < 2 ^ 48) :=
  ⟨decoded_conditions sink d shim header hint hsink opt st buffer hbuf,
    fun ⟨hnodes, hseq, hcut⟩ =>
      decoded_of_conditions sink d shim header hint hsink opt st buffer hbuf hnodes hseq hcut⟩

end Sink

def sampleSegment (seqNum : BitVec 32) : Datagram where
  ethernet := ⟨0x020000000002, 0x020000000001, 0x0800⟩
  ipv4 := ⟨4, 5, ipv4DscpInt, 0, 76, 0, 0, 0, 64, 6, 0, 0x0a000001, 0x0a000002⟩
  l4 := .tcp ⟨5000, 6000, seqNum, 0, 5, 0, 0x18, 1024, 0, 0⟩
  int := some (⟨1, 0, 9, 0, 0⟩, ⟨1, 0, 0, 0, 0, 1, 0, 6, 0xfe, 0x00cc, 1⟩)
  payload := List.replicate 24 0
  accepted := ⟨rfl, rfl, iff_of_true rfl rfl, by rintro _ ⟨⟩; exact ⟨by decide, rfl⟩⟩

theorem flow_decoded_sample :
    ∃ report record st', sampleSink.forward (sampleSegment 1).frame = some report ∧
      processPacket sampleOptions State.initial (recvfrom report (List.replicate pktBufSize 0)) =
        .ok (record, st') ∧
      FlowDecoded (sampleSegment 1).toSegments sampleSink record :=
  (flow_decoded_iff sampleSink (sampleSegment 1) _ _ rfl rfl sampleOptions State.initial _
    List.length_replicate).mpr ⟨.inr ⟨by decide, by decide⟩, by rintro _ ⟨⟩; decide,
      fun h => absurd h (by decide)⟩

/-- A segment with sequence number 0 is taken for a UDP packet. -/
theorem segment_not_decoded :
    ¬ ∃ report record st', sampleSink.forward (sampleSegment 0).frame = some report ∧
      processPacket sampleOptions State.initial (recvfrom report (List.replicate pktBufSize 0)) =
        .ok (record, st') ∧
      FlowDecoded (sampleSegment 0).toSegments sampleSink record := by
  intro h
  have hseq := (decoded_conditions sampleSink (sampleSegment 0) _ _ rfl rfl sampleOptions
    State.initial _ List.length_replicate h).2.1
  exact hseq _ rfl rfl

end IntPlatform.EndToEnd.FlowHeader
