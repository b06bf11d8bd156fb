import IntPlatform.P4c.Effects

namespace IntPlatform.P4c.SinkEffect

open Library.Formats Library.HeaderValidity Library.MatchAction
open HeaderTypes Parsing Ingress Deparser NodeFields Effects

structure IsSink (hop : Hop) : Prop where
  source : hop.program.source = false
  sink : hop.program.sink = true

def growth (hop : Hop) (h : TransitIntHeader) : Insertion :=
  if h.hopInfo ≠ exhausted hop.program.constants then hop.insertion h.instructionMask
  else ⟨fun _ => false, 0⟩

def growthBytes (hop : Hop) (h : TransitIntHeader) : BitVec 16 := BitVec.ofNat 16 ((growth hop h).words * 4)

def removed (u : Udp) (shim : Intl4Shim) (l : Laden) : Laden where
  ethernet := l.ethernet
  ipv4 := { l.ipv4 with dscp := shim.dscp, totalLen := l.ipv4.totalLen - intAllHeaderLenBytes }
  l4 := .udp { u with len := l.ipv4.totalLen - intAllHeaderLenBytes - intAllHeaderLenBytes }
  int := none
  payload := l.payload
  node := NodeMetadata.invalid
  ckHelper := some { (read l.ckHelper) with
    oldUdpLen := u.len
    oldTotalLen := l.ipv4.totalLen
    oldDscp := ipv4DscpInt16
    ipv4Dscp := 0 }

structure Outer where
  ethernet : Ethernet
  ipv4 : Ipv4
  udp : Udp
  fixedHeader : IntReportFixedHeader
deriving DecidableEq, Repr

namespace Outer

def bytes (o : Outer) : List Byte :=
  ethernetCodec.encode o.ethernet ++ ipv4Codec.encode o.ipv4 ++ udpCodec.encode o.udp ++
    intReportFixedHeaderCodec.encode o.fixedHeader

def onto (o : Outer) (hdr : Headers) : Headers :=
  { hdr with
    reportEthernet := some o.ethernet
    reportIpv4 := some o.ipv4
    reportUdp := some o.udp
    reportFixedHeader := some o.fixedHeader }

end Outer

def outerLen (totalLen : BitVec 16) : BitVec 16 := totalLen + etherLen + ipLen + udpLen + reportLen

def outer (r : ReportTarget) (totalLen : BitVec 16) (switchId seqNum : BitVec 32)
    (ingressTstamp : BitVec 64) : Outer where
  ethernet := ⟨r.collectorMac, r.dpMac, 0x0800⟩
  ipv4 := ⟨0x45, 0, outerLen totalLen, 0, 0, 64, 17, 0, r.dpIp, r.collectorIp⟩
  udp := ⟨0, r.collectorPort, outerLen totalLen - 20, 0⟩
  fixedHeader :=
    ⟨intVersion, intReportHeaderLenWords, 0, 0, 0, 0, 0, 1, 0, 0, switchId, seqNum, ingressTstamp⟩

/-- The actions that send a report. -/
def SinkAction.target : SinkAction → Option ReportTarget
  | .sendReport r => some r
  | .removeInt => none
  | .defAction => some ⟨0xcccccccccccc, 0xc0aabbcc, 0xbbbbbbbbbbbb, 0xc0aabbdd, 17000⟩

theorem SinkAction.run_target (act : SinkAction) (r : ReportTarget) (hr : SinkAction.target act = some r)
    (istd : InputMetadata) (s : State) : act.run istd s = sendReport istd r s := by
  cases act with
  | sendReport r' =>
      cases hr
      rfl
  | removeInt => cases hr
  | defAction =>
      cases hr
      rfl

section Stages

variable (l : Laden) (md : Metadata) (port : BitVec 16) (seq : BitVec 32)

theorem removeInt_headers (u : Udp) (shim : Intl4Shim) (h : TransitIntHeader) (hl4 : l.l4 = .udp u)
    (hint : l.int = some (shim, h)) (hlen : md.totalHopsLen = 0) :
    removeInt ⟨l.headers, md, port, seq⟩ =
      ⟨(removed u shim l).headers, { md with remove := 1 }, port, seq⟩ := by
  obtain ⟨⟨ethernet, ipv4, l4, int, payload⟩, node, ckHelper⟩ := l
  dsimp only at hl4 hint
  subst hl4 hint
  have hz (x : BitVec 16) : x - intAllHeaderLenBytes - md.totalHopsLen = x - intAllHeaderLenBytes := by
    rw [hlen]
    exact BitVec.sub_zero _
  simp only [removeInt, Laden.headers, Segments.headers, Transport.udp?, read_some, hz]
  cases ckHelper <;> rfl

theorem sendReport_headers (istd : InputMetadata) (r : ReportTarget) :
    sendReport istd r ⟨l.headers, md, port, seq⟩ =
      ⟨(outer r l.ipv4.totalLen md.switchId seq istd.ingressTimestamp).onto l.headers, md, port,
        seq + 1⟩ := rfl

theorem sinkPart_headers (t : Tables) (istd : InputMetadata) (u : Udp) (shim : Intl4Shim)
    (h : TransitIntHeader) (hl4 : l.l4 = .udp u) (hint : l.int = some (shim, h)) (act : SinkAction)
    (hsel : t.tableSinkConfig.select u.srcPort = some act) :
    sinkPart t istd ⟨l.headers, md, port, seq⟩ =
      act.run istd ⟨l.headers, { md with remove := 0 }, port, seq⟩ := by
  have hi : l.headers.transitIntHeader = some h := by
    rw [Laden.headers, Segments.headers, hint]
    rfl
  have hu : (read l.headers.udp).srcPort = u.srcPort := by
    rw [Laden.headers, Segments.headers, hl4]
    rfl
  simp only [sinkPart, hi, Option.isSome_some, ↓reduceIte, hu, Table.apply, hsel, Option.elim_some]

theorem myIngressDeparser_onto (p : Program) (o : Outer) (hk : p.sink = true) (hint : l.int.isSome) :
    myIngressDeparser p (o.onto l.headers) l.payload = o.bytes ++ (deparsed p.source l).emitted.frame := by
  have hr : ((deparsed p.source l).headers.transitIntHeader.isSome && p.sink) = true := by
    rw [hk, Bool.and_true, Laden.headers, Segments.headers, deparsed]
    cases hi : l.int with
    | none =>
        rw [hi] at hint
        cases hint
    | some r => cases p.source <;> rfl
  have hd : udpChecksum p.source { o.onto l.headers with
      ipv4 := write l.headers.ipv4 fun h =>
        { h with hdrChecksum := ipv4Checksum p.source l.headers } } =
          o.onto (deparsed p.source l).headers := by
    rw [← deparsed_headers]
    cases p.source <;> rfl
  have he : myIngressDeparser p (o.onto l.headers) l.payload =
      (if (o.onto (deparsed p.source l).headers).transitIntHeader.isSome && p.sink then
        emitReport (o.onto (deparsed p.source l).headers) else []) ++
          emitOriginal (o.onto (deparsed p.source l).headers) ++ l.payload := by
    rw [← hd]
    rfl
  have hi : (o.onto (deparsed p.source l).headers).transitIntHeader =
      (deparsed p.source l).headers.transitIntHeader := rfl
  rw [he, hi, hr, if_pos rfl, List.append_assoc, ← emitOriginal_headers]
  rfl

end Stages

section Sink

variable (hop : Hop) (hsink : IsSink hop) (s : Segments) (u : Udp) (shim : Intl4Shim)
  (h : TransitIntHeader) (hl4 : s.l4 = .udp u) (hint : s.int = some (shim, h))

include hsink hint

theorem laden_grown :
    ∃ shim' h', shim'.dscp = shim.dscp ∧ hop.laden s =
      { ethernet := { s.ethernet with dstAddr := hop.program.mac.getD s.ethernet.dstAddr }
        ipv4 := { s.ipv4 with totalLen := s.ipv4.totalLen + growthBytes hop h }
        l4 := growUdp (growthBytes hop h) s.l4
        int := some (shim', h')
        payload := s.payload
        node := chosen (hop.values s) (growth hop h).fields
        ckHelper := some { (default : CkHelper) with
          oldUdpLen := (read s.l4.udp?).len
          oldShimLen := shim.len
          oldHop := h.hopInfo
          oldTotalLen := s.ipv4.totalLen } } := by
  have hsrc := sourcePart_transit hop s hsink.source
  by_cases hx : h.hopInfo = exhausted hop.program.constants
  · have hg : growth hop h = ⟨fun _ => false, 0⟩ := by rw [growth, if_neg (not_not.mpr hx)]
    have hz : growthBytes hop h = 0#16 := by
      rw [growthBytes, hg]
      rfl
    have hl : growUdp 0#16 s.l4 = s.l4 := by
      cases s.l4 <;> simp [growUdp]
    refine ⟨shim, exceed h, rfl, ?_⟩
    rw [laden_exceeded hop s _ shim h hsrc hint hx, hz, hl, hg, BitVec.add_zero]
    simp only [withMac, onHeader, saved, hint, Option.map_some]
    rfl
  · have hg : growth hop h = hop.insertion h.instructionMask := by rw [growth, if_pos hx]
    refine ⟨{ shim with len := shim.len + BitVec.ofNat 8 (hop.insertion h.instructionMask).words },
      { h with hopInfo := h.hopInfo - 1 }, rfl, ?_⟩
    rw [laden_inserted hop s _ shim h hsrc rfl hint hx, growthBytes, hg]
    simp only [withMac, inserted, saved, hint, Option.map_some]
    rfl

include hl4

theorem forward_sink (hs : s.Accepted) (act : SinkAction)
    (hsel : hop.tables.tableSinkConfig.select u.srcPort = some act) :
    ∃ md port, md.totalHopsLen = 0 ∧
      md.switchId = knownSwitchId hop.program hop.tables (some (shim, h)) ∧ hop.forward s.frame = some
      (myIngressDeparser hop.program (act.run hop.arrival.istd
        ⟨(hop.laden s).headers, md, port, hop.reportSeqNum⟩).hdr s.payload) := by
  obtain ⟨md, port, hlen, hid, hi⟩ := myIngress_headers hop s
  have hsame : (sourcePart hop.program hop.tables s).int = some (shim, h) := by
    rw [sourcePart_transit hop s hsink.source]
    exact hint
  rw [hsame] at hid
  obtain ⟨shim', h', -, hl⟩ := laden_grown hop hsink s shim h hint
  have hl4' : (hop.laden s).l4 = .udp { u with len := u.len + growthBytes hop h } := by
    rw [hl, hl4]
    rfl
  have hint' : (hop.laden s).int = some (shim', h') := by rw [hl]
  simp only [hsink.sink, ↓reduceIte] at hi
  rw [sinkPart_headers _ _ _ _ _ _ _ shim' h' hl4' hint' act hsel] at hi
  refine ⟨{ md with remove := 0 }, port, hlen, hid, ?_⟩
  rw [Hop.forward, ingressPipeline, myIngressParser_frame s hs]
  change some (myIngressDeparser _ _ _) = _
  rw [hi]

theorem forward_removed (hs : s.Accepted)
    (hsel : hop.tables.tableSinkConfig.select u.srcPort = some .removeInt) :
    ∃ shim', shim'.dscp = shim.dscp ∧ hop.forward s.frame = some
      (deparsed false (removed { u with len := u.len + growthBytes hop h } shim' (hop.laden s))).emitted.frame := by
  obtain ⟨md, port, hlen, -, hf⟩ := forward_sink hop hsink s u shim h hl4 hint hs _ hsel
  obtain ⟨shim', h', hdscp, hl⟩ := laden_grown hop hsink s shim h hint
  have hl4' : (hop.laden s).l4 = .udp { u with len := u.len + growthBytes hop h } := by
    rw [hl, hl4]
    rfl
  have hint' : (hop.laden s).int = some (shim', h') := by rw [hl]
  refine ⟨shim', hdscp, ?_⟩
  have hr := removeInt_headers (hop.laden s) md port hop.reportSeqNum _ shim' h' hl4' hint' hlen
  have hd := myIngressDeparser_headers hop.program
    (removed { u with len := u.len + growthBytes hop h } shim' (hop.laden s)) rfl
  rw [hsink.source] at hd
  rw [hf, SinkAction.run, hr, ← hd, ← laden_payload hop s]
  rfl

theorem forward_reported (hs : s.Accepted) (act : SinkAction)
    (hsel : hop.tables.tableSinkConfig.select u.srcPort = some act) (r : ReportTarget)
    (hr : SinkAction.target act = some r) :
    hop.forward s.frame = some
      ((outer r (s.ipv4.totalLen + growthBytes hop h)
        (knownSwitchId hop.program hop.tables (some (shim, h))) hop.reportSeqNum
        hop.arrival.istd.ingressTimestamp).bytes ++ (deparsed false (hop.laden s)).emitted.frame) := by
  obtain ⟨md, port, -, hid, hf⟩ := forward_sink hop hsink s u shim h hl4 hint hs _ hsel
  obtain ⟨shim', h', -, hl⟩ := laden_grown hop hsink s shim h hint
  have hint' : (hop.laden s).int.isSome := by
    rw [hl]
    rfl
  have hlen : (hop.laden s).ipv4.totalLen = s.ipv4.totalLen + growthBytes hop h := by rw [hl]
  have hd := myIngressDeparser_onto (hop.laden s) hop.program
    (outer r (s.ipv4.totalLen + growthBytes hop h) md.switchId hop.reportSeqNum
      hop.arrival.istd.ingressTimestamp) hsink.sink hint'
  rw [hsink.source, laden_payload] at hd
  rw [hf, SinkAction.run_target act r hr, sendReport_headers, hlen, hd, hid]

end Sink

end IntPlatform.P4c.SinkEffect
