import IntPlatform.Library.MatchAction
import IntPlatform.P4c.HeaderTypes

namespace IntPlatform.P4c.Ingress

open Library.HeaderValidity Library.MatchAction HeaderTypes

/-- What the control reads and writes: headers, metadata, the chosen egress
port and the register of report sequence numbers. -/
structure State where
  hdr : Headers
  metadata : Metadata
  egressPort : BitVec 16
  reportSeqNum : BitVec 32
deriving DecidableEq, Repr

structure InputMetadata where
  ingressPort : BitVec 16
  ingressTimestamp : BitVec 64
deriving DecidableEq, Repr

/-- The program that generate.py renders: its constants, its role, and the
address of the next node if one was given with -m. -/
structure Program where
  constants : Constants
  source : Bool
  sink : Bool
  mac : Option (BitVec 48)
deriving DecidableEq, Repr

section Transit

def configureTransit (switchId : BitVec 32) (l3Mtu : BitVec 16) (s : State) : State :=
  { s with metadata := { s.metadata with
    switchId := switchId
    insertByteCnt := 0
    intHdrWordLen := 0
    l3Mtu := l3Mtu } }

inductive TransitAction
  | configureTransit (switchId : BitVec 32) (l3Mtu : BitVec 16)
  | defaultTransitConf
deriving DecidableEq, Repr

def TransitAction.run : TransitAction → State → State
  | configureTransit switchId l3Mtu => Ingress.configureTransit switchId l3Mtu
  | defaultTransitConf => Ingress.configureTransit 9 1500

def add (x : Nat) (m : Metadata) : Metadata :=
  { m with
    intHdrWordLen := m.intHdrWordLen + BitVec.ofNat 8 x
    insertByteCnt := m.insertByteCnt + BitVec.ofNat 16 (x * 4) }

inductive Field
  | switchId
  | portIds
  | hopLatency
  | qOccupancy
  | ingressTstamp
  | egressTstamp
  | level2PortIds
  | egressPortTxUtil
deriving DecidableEq, Repr

def onNode (s : State) (f : NodeMetadata → NodeMetadata) : State :=
  { s with hdr := { s.hdr with node := f s.hdr.node } }

def intSetHeader (s : State) : Field → State
  | .switchId => onNode s fun n =>
      { n with intSwitchId := write (setValid n.intSwitchId) fun _ => ⟨s.metadata.switchId⟩ }
  | .portIds => onNode s fun n =>
      { n with intPortIds :=
          write (setValid n.intPortIds) fun _ => ⟨s.metadata.ingressPort, s.egressPort⟩ }
  | .hopLatency => onNode s fun n =>
      { n with intHopLatency := write (setValid n.intHopLatency) fun _ => ⟨0⟩ }
  | .qOccupancy => onNode s fun n =>
      { n with intQOccupancy := write (setValid n.intQOccupancy) fun _ => ⟨0, 0⟩ }
  | .ingressTstamp => onNode s fun n =>
      { n with intIngressTstamp :=
          write (setValid n.intIngressTstamp) fun _ => ⟨s.metadata.ingressTstamp⟩ }
  | .egressTstamp => onNode s fun n =>
      { n with intEgressTstamp := write (setValid n.intEgressTstamp) fun _ => ⟨0⟩ }
  | .level2PortIds => onNode s fun n =>
      { n with intLevel2PortIds := write (setValid n.intLevel2PortIds) fun _ => ⟨0, 0⟩ }
  | .egressPortTxUtil => onNode s fun n =>
      { n with intEgressPortTxUtil := write (setValid n.intEgressPortTxUtil) fun _ => ⟨0⟩ }

/-- An action of the two instruction tables: the headers it sets, in its order,
and the words it counts. -/
structure InstAction where
  fields : List Field
  words : Nat
deriving DecidableEq, Repr

def InstAction.run (a : InstAction) (s : State) : State :=
  let s := a.fields.foldl intSetHeader s
  { s with metadata := add a.words s.metadata }

def intSetHeader0003I0 : InstAction := ⟨[], 0⟩
def intSetHeader0003I1 : InstAction := ⟨[.qOccupancy], 1⟩
def intSetHeader0003I2 : InstAction := ⟨[.hopLatency], 1⟩
def intSetHeader0003I3 : InstAction := ⟨[.egressTstamp, .hopLatency], 3⟩
def intSetHeader0003I4 : InstAction := ⟨[.portIds], 1⟩
def intSetHeader0003I5 : InstAction := ⟨[.qOccupancy, .portIds], 2⟩
def intSetHeader0003I6 : InstAction := ⟨[.hopLatency, .portIds], 2⟩
def intSetHeader0003I7 : InstAction := ⟨[.qOccupancy, .hopLatency, .portIds], 3⟩
def intSetHeader0003I8 : InstAction := ⟨[.switchId], 1⟩
def intSetHeader0003I9 : InstAction := ⟨[.qOccupancy, .switchId], 2⟩
def intSetHeader0003I10 : InstAction := ⟨[.hopLatency, .switchId], 2⟩
def intSetHeader0003I11 : InstAction := ⟨[.qOccupancy, .hopLatency, .switchId], 3⟩
def intSetHeader0003I12 : InstAction := ⟨[.portIds, .switchId], 2⟩
def intSetHeader0003I13 : InstAction := ⟨[.qOccupancy, .portIds, .switchId], 3⟩
def intSetHeader0003I14 : InstAction := ⟨[.hopLatency, .portIds, .switchId], 3⟩
def intSetHeader0003I15 : InstAction := ⟨[.qOccupancy, .hopLatency, .portIds, .switchId], 4⟩

def intSetHeader0407I0 : InstAction := ⟨[], 0⟩
def intSetHeader0407I1 : InstAction := ⟨[.egressPortTxUtil], 1⟩
def intSetHeader0407I2 : InstAction := ⟨[.level2PortIds], 1⟩
def intSetHeader0407I3 : InstAction := ⟨[.egressPortTxUtil, .level2PortIds], 2⟩
def intSetHeader0407I4 : InstAction := ⟨[.egressTstamp], 2⟩
def intSetHeader0407I5 : InstAction := ⟨[.egressPortTxUtil, .egressTstamp], 3⟩
def intSetHeader0407I6 : InstAction := ⟨[.level2PortIds, .egressTstamp], 3⟩
def intSetHeader0407I7 : InstAction := ⟨[.egressPortTxUtil, .level2PortIds, .egressTstamp], 4⟩
def intSetHeader0407I8 : InstAction := ⟨[.ingressTstamp], 2⟩
def intSetHeader0407I9 : InstAction := ⟨[.egressPortTxUtil, .ingressTstamp], 3⟩
def intSetHeader0407I10 : InstAction := ⟨[.level2PortIds, .ingressTstamp], 3⟩
def intSetHeader0407I11 : InstAction := ⟨[.egressPortTxUtil, .level2PortIds, .ingressTstamp], 4⟩
def intSetHeader0407I12 : InstAction := ⟨[.egressTstamp, .ingressTstamp], 4⟩
def intSetHeader0407I13 : InstAction := ⟨[.egressPortTxUtil, .egressTstamp, .ingressTstamp], 5⟩
def intSetHeader0407I14 : InstAction := ⟨[.level2PortIds, .egressTstamp, .ingressTstamp], 5⟩
def intSetHeader0407I15 : InstAction :=
  ⟨[.egressPortTxUtil, .level2PortIds, .egressTstamp, .ingressTstamp], 6⟩

/-- The file 003-table, as loaded into tb_int_inst_0003. -/
def table003 : Table (BitVec 16) InstAction where
  entries :=
    [(0x00, intSetHeader0003I0), (0x10, intSetHeader0003I1), (0x20, intSetHeader0003I2),
      (0x30, intSetHeader0003I3), (0x40, intSetHeader0003I4), (0x50, intSetHeader0003I5),
      (0x60, intSetHeader0003I6), (0x70, intSetHeader0003I7), (0x80, intSetHeader0003I8),
      (0x90, intSetHeader0003I9), (0xa0, intSetHeader0003I10), (0xb0, intSetHeader0003I11),
      (0xc0, intSetHeader0003I12), (0xd0, intSetHeader0003I13), (0xe0, intSetHeader0003I14),
      (0xf0, intSetHeader0003I15)]
  defaultAction := none

/-- The file 407-table, as loaded into tb_int_inst_0407. -/
def table407 : Table (BitVec 16) InstAction where
  entries :=
    [(0x0, intSetHeader0407I0), (0x1, intSetHeader0407I1), (0x2, intSetHeader0407I2),
      (0x3, intSetHeader0407I3), (0x4, intSetHeader0407I4), (0x5, intSetHeader0407I5),
      (0x6, intSetHeader0407I6), (0x7, intSetHeader0407I7), (0x8, intSetHeader0407I8),
      (0x9, intSetHeader0407I9), (0xa, intSetHeader0407I10), (0xb, intSetHeader0407I11),
      (0xc, intSetHeader0407I12), (0xd, intSetHeader0407I13), (0xe, intSetHeader0407I14),
      (0xf, intSetHeader0407I15)]
  defaultAction := none

/-- Despite its name in the source the action counts down. -/
def intHopCntIncrement (s : State) : State :=
  { s with hdr := { s.hdr with
    transitIntHeader := write s.hdr.transitIntHeader fun h => { h with hopInfo := h.hopInfo - 1 } } }

def intUpdateIpv4Ac (s : State) : State :=
  { s with hdr := { s.hdr with
    ipv4 := write s.hdr.ipv4 fun h => { h with totalLen := h.totalLen + s.metadata.insertByteCnt } } }

def intUpdateShimAc (s : State) : State :=
  { s with hdr := { s.hdr with
    intShim := write s.hdr.intShim fun h => { h with len := h.len + s.metadata.intHdrWordLen } } }

def intUpdateUdpAc (s : State) : State :=
  { s with hdr := { s.hdr with
    udp := write s.hdr.udp fun h => { h with len := h.len + s.metadata.insertByteCnt } } }

def intHopExceeded (s : State) : State :=
  { s with hdr := { s.hdr with
    transitIntHeader := write s.hdr.transitIntHeader fun h =>
      if h.cE = 0x0000 ∨ h.cE = 0x0100 then { h with cE := h.cE + 0x0001 } else h } }

end Transit

def testUpdateAddresses (mac : BitVec 48) (s : State) : State :=
  { s with hdr := { s.hdr with ethernet := write s.hdr.ethernet fun h => { h with dstAddr := mac } } }

section Source

def configureSource (hopMetadataLenMaxHop insMask : BitVec 16) (s : State) : State :=
  let tos := (read s.hdr.ipv4).dscp
  { s with hdr := { s.hdr with
    ckHelper := write (setValid s.hdr.ckHelper) fun h =>
      { h with
        oldUdpLen := (read s.hdr.udp).len
        oldDscp := 0
        oldTotalLen := (read s.hdr.ipv4).totalLen
        ipv4Protocol := 0x11
        ipv4Dscp := ipv4DscpInt16 }
    intShim := write (setValid s.hdr.intShim) fun h =>
      { h with intType := intTypeHopByHop, len := intAllHeaderLenBytes8 >>> 2, dscp := tos }
    transitIntHeader := write (setValid s.hdr.transitIntHeader) fun h =>
      { h with
        ver := intVersion
        rep := 0
        cE := 0
        mRsvd1 := 0
        rsvd2 := 0
        rsvd3 := 0
        hopInfo := hopMetadataLenMaxHop
        instructionMask := insMask }
    ipv4 := write s.hdr.ipv4 fun h =>
      { h with dscp := ipv4DscpInt, totalLen := h.totalLen + intAllHeaderLenBytes }
    udp := write s.hdr.udp fun h => { h with len := h.len + intAllHeaderLenBytes } } }

inductive SourceAction
  | configureSource (hopMetadataLenMaxHop insMask : BitVec 16)
  | defaultConf
deriving DecidableEq, Repr

def SourceAction.run (c : Constants) : SourceAction → State → State
  | configureSource hop mask => Ingress.configureSource hop mask
  | defaultConf => Ingress.configureSource c.hopInfo c.instructionMaskComplet

end Source

section Sink

structure ReportTarget where
  dpMac : BitVec 48
  dpIp : BitVec 32
  collectorMac : BitVec 48
  collectorIp : BitVec 32
  collectorPort : BitVec 16
deriving DecidableEq, Repr

def sendReport (istd : InputMetadata) (r : ReportTarget) (s : State) : State :=
  let totalLen := (read s.hdr.ipv4).totalLen + etherLen + ipLen + udpLen + reportLen
  { s with
    hdr := { s.hdr with
      reportEthernet := write (setValid s.hdr.reportEthernet) fun _ =>
        { dstAddr := r.collectorMac, srcAddr := r.dpMac, etherType := 0x0800 }
      reportIpv4 := write (setValid s.hdr.reportIpv4) fun h =>
        { h with
          versionIhl := 0x45
          dscp := 0
          totalLen := totalLen
          id := 0
          flagsFlagOffset := 0
          ttl := 64
          protocol := 17
          srcAddr := r.dpIp
          dstAddr := r.collectorIp }
      reportUdp := write (setValid s.hdr.reportUdp) fun h =>
        { h with srcPort := 0, dstPort := r.collectorPort, len := totalLen - 20 }
      reportFixedHeader := write (setValid s.hdr.reportFixedHeader) fun h =>
        { h with
          ver := intVersion
          len := intReportHeaderLenWords
          nprot := 0
          repMdBits := 0
          reserved := 0
          d := 0
          q := 0
          f := 1
          hwId := 0
          switchId := s.metadata.switchId
          seqNum := s.reportSeqNum
          ingressTstamp := istd.ingressTimestamp } }
    reportSeqNum := s.reportSeqNum + 1 }

/-- Only the metadata that this node added is removed, as in the source. -/
def removeInt (s : State) : State :=
  let totalLen := (read s.hdr.ipv4).totalLen - intAllHeaderLenBytes - s.metadata.totalHopsLen
  { s with
    hdr := { s.hdr with
      ckHelper := write (setValid s.hdr.ckHelper) fun h =>
        { h with
          oldUdpLen := (read s.hdr.udp).len
          oldTotalLen := (read s.hdr.ipv4).totalLen
          oldDscp := ipv4DscpInt16
          ipv4Dscp := 0 }
      ipv4 := write s.hdr.ipv4 fun h => { h with dscp := (read s.hdr.intShim).dscp, totalLen := totalLen }
      udp := write s.hdr.udp fun h => { h with len := totalLen - intAllHeaderLenBytes }
      node := NodeMetadata.invalid
      intShim := setInvalid s.hdr.intShim
      transitIntHeader := setInvalid s.hdr.transitIntHeader }
    metadata := { s.metadata with remove := 1 } }

inductive SinkAction
  | sendReport (r : ReportTarget)
  | removeInt
  | defAction
deriving DecidableEq, Repr

def SinkAction.run (istd : InputMetadata) : SinkAction → State → State
  | sendReport r => Ingress.sendReport istd r
  | removeInt => Ingress.removeInt
  | defAction =>
      Ingress.sendReport istd ⟨0xcccccccccccc, 0xc0aabbcc, 0xbbbbbbbbbbbb, 0xc0aabbdd, 17000⟩

end Sink

inductive ForwardAction
  | sendToCpu (port : BitVec 16)
  | sendToPortCustom (port : BitVec 16)
deriving DecidableEq, Repr

def send (port : BitVec 16) (s : State) : State := { s with egressPort := port }

def ForwardAction.run : ForwardAction → State → State
  | sendToCpu port => send port
  | sendToPortCustom port => send port

/-- The tables as the control plane has filled them. The table tb_int_transit
has no key, so it is its default action. -/
structure Tables where
  tbIntSource : Table (BitVec 32 × BitVec 32) SourceAction
  tbIntTransit : Option TransitAction
  tbIntInst0003 : Table (BitVec 16) InstAction
  tbIntInst0407 : Table (BitVec 16) InstAction
  tbForward : Table (BitVec 48) ForwardAction
  tbPortForward : Table (BitVec 16) (BitVec 16)
  tableSinkConfig : Table (BitVec 16) SinkAction
deriving Repr

def setMask (mask : BitVec 16) (s : State) : State :=
  { s with metadata := { s.metadata with
    mask := (read s.hdr.transitIntHeader).instructionMask &&& mask } }

def addMetadata (t : Tables) (s : State) : State :=
  let s := setMask 0x00f0 s
  let s := t.tbIntInst0003.apply InstAction.run s.metadata.mask s
  let s := setMask 0x000f s
  t.tbIntInst0407.apply InstAction.run s.metadata.mask s

def updateLengths (s : State) : State :=
  let s := intUpdateIpv4Ac s
  let s := if s.hdr.udp.isSome then intUpdateUdpAc s else s
  if s.hdr.intShim.isSome then intUpdateShimAc s else s

def transit (t : Tables) (s : State) : State :=
  let s := intHopCntIncrement s
  let s := t.tbIntTransit.elim s (TransitAction.run · s)
  updateLengths (addMetadata t s)

def saveOld (s : State) : State :=
  { s with hdr := { s.hdr with
    ckHelper := write (setValid s.hdr.ckHelper) fun h =>
      { h with
        oldUdpLen := (read s.hdr.udp).len
        oldShimLen := (read s.hdr.intShim).len
        oldHop := (read s.hdr.transitIntHeader).hopInfo
        oldTotalLen := (read s.hdr.ipv4).totalLen } } }

def exhausted (c : Constants) : BitVec 16 := c.hopInfo - c.maxHop16

def transitPart (p : Program) (t : Tables) (s : State) : State :=
  let s := saveOld s
  if s.hdr.transitIntHeader.isSome then
    let s :=
      if (read s.hdr.transitIntHeader).hopInfo ≠ exhausted p.constants then transit t s
      else intHopExceeded s
    p.mac.elim s (testUpdateAddresses · s)
  else s

def sinkPart (t : Tables) (istd : InputMetadata) (s : State) : State :=
  if s.hdr.transitIntHeader.isSome then
    let s := { s with metadata := { s.metadata with remove := 0 } }
    t.tableSinkConfig.apply (SinkAction.run istd) (read s.hdr.udp).srcPort s
  else s

def myIngress (p : Program) (t : Tables) (istd : InputMetadata) (s : State) : State :=
  if s.hdr.udp.isSome || s.hdr.tcp.isSome then
    let s := { s with metadata := { s.metadata with
      ingressTstamp := istd.ingressTimestamp
      ingressPort := istd.ingressPort } }
    let s :=
      if p.source then
        t.tbIntSource.apply (SourceAction.run p.constants)
          ((read s.hdr.ipv4).srcAddr, (read s.hdr.ipv4).dstAddr) s
      else s
    let s := t.tbForward.apply ForwardAction.run (read s.hdr.ethernet).dstAddr s
    let s := t.tbPortForward.apply send s.egressPort s
    let s := transitPart p t s
    if p.sink then sinkPart t istd s else s
  else s

end IntPlatform.P4c.Ingress
