import IntPlatform.Library.HeaderValidity

namespace IntPlatform.P4c.HeaderTypes

open Library.Formats Library.HeaderValidity

def etherLen : BitVec 16 := 14
def ipLen : BitVec 16 := 20
def udpLen : BitVec 16 := 8
def reportLen : BitVec 16 := 22

def ipv4DscpInt : BitVec 8 := 0x20
def ipv4DscpInt16 : BitVec 16 := 0x20
def dscpMask : BitVec 8 := 0x3f

def intShimHeaderLenBytes8 : BitVec 8 := 6
def intShimHeaderLenBytes : BitVec 16 := 6
def intTypeHopByHop : BitVec 8 := 1
def intHeaderLenBytes8 : BitVec 8 := 14
def intHeaderLenBytes : BitVec 16 := 14
def intVersion : BitVec 8 := 1
def intReportHeaderLenWords : BitVec 8 := 4

def intAllHeaderLenBytes8 : BitVec 8 := intShimHeaderLenBytes8 + intHeaderLenBytes8
def intAllHeaderLenBytes : BitVec 16 := intShimHeaderLenBytes + intHeaderLenBytes

/-- The constants of the generated header file that depend on the options -n,
-l, -a and -k. -/
structure Constants where
  hopInfo : BitVec 16
  maxHop16 : BitVec 16
  instructionMaskComplet : BitVec 16
deriving DecidableEq, Repr

structure Ethernet where
  dstAddr : BitVec 48
  srcAddr : BitVec 48
  etherType : BitVec 16
deriving DecidableEq, Inhabited, Repr

/-- The dscp field is the whole TOS byte. -/
structure Ipv4 where
  versionIhl : BitVec 8
  dscp : BitVec 8
  totalLen : BitVec 16
  id : BitVec 16
  flagsFlagOffset : BitVec 16
  ttl : BitVec 8
  protocol : BitVec 8
  hdrChecksum : BitVec 16
  srcAddr : BitVec 32
  dstAddr : BitVec 32
deriving DecidableEq, Inhabited, Repr

structure Udp where
  srcPort : BitVec 16
  dstPort : BitVec 16
  len : BitVec 16
  csum : BitVec 16
deriving DecidableEq, Inhabited, Repr

structure Tcp where
  srcPort : BitVec 16
  dstPort : BitVec 16
  seqNum : BitVec 32
  ackNum : BitVec 32
  dataOffsetReservedFlags : BitVec 16
  winSize : BitVec 16
  csum : BitVec 16
  urgPoint : BitVec 16
deriving DecidableEq, Inhabited, Repr

structure Intl4Shim where
  intType : BitVec 8
  rsvd1 : BitVec 8
  len : BitVec 8
  dscp : BitVec 8
  rsvd3 : BitVec 8
  padding : BitVec 8
deriving DecidableEq, Inhabited, Repr

structure TransitIntHeader where
  ver : BitVec 8
  rep : BitVec 8
  cE : BitVec 16
  mRsvd1 : BitVec 16
  rsvd2 : BitVec 16
  hopInfo : BitVec 16
  instructionMask : BitVec 16
  rsvd3 : BitVec 16
deriving DecidableEq, Inhabited, Repr

/-- Old field values for the checksums. This header is never emitted. -/
structure CkHelper where
  oldUdpLen : BitVec 16
  oldShimLen : BitVec 8
  oldHop : BitVec 16
  oldDscp : BitVec 16
  oldTotalLen : BitVec 16
  ipv4Dscp : BitVec 16
  ipv4Protocol : BitVec 16
deriving DecidableEq, Inhabited, Repr

structure IntSwitchId where
  switchId : BitVec 32
deriving DecidableEq, Inhabited, Repr

structure IntPortIds where
  ingressPortId : BitVec 16
  egressPortId : BitVec 16
deriving DecidableEq, Inhabited, Repr

structure IntHopLatency where
  hopLatency : BitVec 32
deriving DecidableEq, Inhabited, Repr

structure IntQOccupancy where
  qId : BitVec 8
  qOccupancy : BitVec 24
deriving DecidableEq, Inhabited, Repr

structure IntIngressTstamp where
  ingressTstamp : BitVec 64
deriving DecidableEq, Inhabited, Repr

structure IntEgressTstamp where
  egressTstamp : BitVec 64
deriving DecidableEq, Inhabited, Repr

structure IntLevel2PortIds where
  ingressPortId : BitVec 16
  egressPortId : BitVec 16
deriving DecidableEq, Inhabited, Repr

structure IntEgressPortTxUtil where
  egressPortTxUtil : BitVec 32
deriving DecidableEq, Inhabited, Repr

structure IntReportFixedHeader where
  ver : BitVec 8
  len : BitVec 8
  nprot : BitVec 8
  repMdBits : BitVec 8
  reserved : BitVec 8
  d : BitVec 8
  q : BitVec 8
  f : BitVec 8
  hwId : BitVec 8
  padding : BitVec 8
  switchId : BitVec 32
  seqNum : BitVec 32
  ingressTstamp : BitVec 64
deriving DecidableEq, Inhabited, Repr

/-- The eight local INT node metadata headers. -/
structure NodeMetadata where
  intSwitchId : Header IntSwitchId
  intPortIds : Header IntPortIds
  intHopLatency : Header IntHopLatency
  intQOccupancy : Header IntQOccupancy
  intIngressTstamp : Header IntIngressTstamp
  intEgressTstamp : Header IntEgressTstamp
  intLevel2PortIds : Header IntLevel2PortIds
  intEgressPortTxUtil : Header IntEgressPortTxUtil
deriving DecidableEq, Repr

def NodeMetadata.invalid : NodeMetadata := ⟨none, none, none, none, none, none, none, none⟩

structure Headers where
  reportEthernet : Header Ethernet
  reportIpv4 : Header Ipv4
  reportUdp : Header Udp
  reportFixedHeader : Header IntReportFixedHeader
  ethernet : Header Ethernet
  ipv4 : Header Ipv4
  tcp : Header Tcp
  udp : Header Udp
  intShim : Header Intl4Shim
  transitIntHeader : Header TransitIntHeader
  node : NodeMetadata
  ckHelper : Header CkHelper
deriving DecidableEq, Repr

def Headers.invalid : Headers :=
  ⟨none, none, none, none, none, none, none, none, none, none, NodeMetadata.invalid, none⟩

structure Metadata where
  switchId : BitVec 32
  insertByteCnt : BitVec 16
  intHdrWordLen : BitVec 8
  ingressTstamp : BitVec 64
  ingressPort : BitVec 16
  l3Mtu : BitVec 16
  dscp : BitVec 8
  totalHopsLen : BitVec 16
  remove : BitVec 8
  l4Src : BitVec 16
  l4Dst : BitVec 16
  mask : BitVec 16
deriving DecidableEq, Inhabited, Repr

def ethernetCodec : Codec Ethernet :=
  along (pair be48 (pair be48 be16))
    { toFun := fun ⟨dst, src, t⟩ => ⟨dst, src, t⟩
      invFun := fun h => (h.dstAddr, h.srcAddr, h.etherType)
      left_inv := fun _ => rfl
      right_inv := fun _ => rfl }

def ipv4Codec : Codec Ipv4 :=
  along
    (pair byte <| pair byte <| pair be16 <| pair be16 <| pair be16 <| pair byte <| pair byte <|
      pair be16 <| pair be32 be32)
    { toFun := fun ⟨versionIhl, dscp, totalLen, id, flags, ttl, protocol, checksum, src, dst⟩ =>
        ⟨versionIhl, dscp, totalLen, id, flags, ttl, protocol, checksum, src, dst⟩
      invFun := fun h => (h.versionIhl, h.dscp, h.totalLen, h.id, h.flagsFlagOffset, h.ttl, h.protocol,
        h.hdrChecksum, h.srcAddr, h.dstAddr)
      left_inv := fun _ => rfl
      right_inv := fun _ => rfl }

def udpCodec : Codec Udp :=
  along (pair be16 <| pair be16 <| pair be16 be16)
    { toFun := fun ⟨src, dst, len, csum⟩ => ⟨src, dst, len, csum⟩
      invFun := fun h => (h.srcPort, h.dstPort, h.len, h.csum)
      left_inv := fun _ => rfl
      right_inv := fun _ => rfl }

def tcpCodec : Codec Tcp :=
  along (pair be16 <| pair be16 <| pair be32 <| pair be32 <| pair be16 <| pair be16 <| pair be16 be16)
    { toFun := fun ⟨src, dst, seqNum, ackNum, flags, win, csum, urg⟩ =>
        ⟨src, dst, seqNum, ackNum, flags, win, csum, urg⟩
      invFun := fun h => (h.srcPort, h.dstPort, h.seqNum, h.ackNum, h.dataOffsetReservedFlags, h.winSize,
        h.csum, h.urgPoint)
      left_inv := fun _ => rfl
      right_inv := fun _ => rfl }

def intl4ShimCodec : Codec Intl4Shim :=
  along (pair byte <| pair byte <| pair byte <| pair byte <| pair byte byte)
    { toFun := fun ⟨intType, rsvd1, len, dscp, rsvd3, padding⟩ =>
        ⟨intType, rsvd1, len, dscp, rsvd3, padding⟩
      invFun := fun h => (h.intType, h.rsvd1, h.len, h.dscp, h.rsvd3, h.padding)
      left_inv := fun _ => rfl
      right_inv := fun _ => rfl }

def transitIntHeaderCodec : Codec TransitIntHeader :=
  along (pair byte <| pair byte <| pair be16 <| pair be16 <| pair be16 <| pair be16 <| pair be16 be16)
    { toFun := fun ⟨ver, rep, cE, mRsvd1, rsvd2, hopInfo, mask, rsvd3⟩ =>
        ⟨ver, rep, cE, mRsvd1, rsvd2, hopInfo, mask, rsvd3⟩
      invFun := fun h => (h.ver, h.rep, h.cE, h.mRsvd1, h.rsvd2, h.hopInfo, h.instructionMask, h.rsvd3)
      left_inv := fun _ => rfl
      right_inv := fun _ => rfl }

def intSwitchIdCodec : Codec IntSwitchId :=
  along be32 ⟨IntSwitchId.mk, IntSwitchId.switchId, fun _ => rfl, fun _ => rfl⟩

def intPortIdsCodec : Codec IntPortIds :=
  along (pair be16 be16) ⟨fun p => ⟨p.1, p.2⟩, fun h => (h.ingressPortId, h.egressPortId),
    fun _ => rfl, fun _ => rfl⟩

def intHopLatencyCodec : Codec IntHopLatency :=
  along be32 ⟨IntHopLatency.mk, IntHopLatency.hopLatency, fun _ => rfl, fun _ => rfl⟩

def intQOccupancyCodec : Codec IntQOccupancy :=
  along (pair byte be24) ⟨fun p => ⟨p.1, p.2⟩, fun h => (h.qId, h.qOccupancy), fun _ => rfl, fun _ => rfl⟩

def intIngressTstampCodec : Codec IntIngressTstamp :=
  along be64 ⟨IntIngressTstamp.mk, IntIngressTstamp.ingressTstamp, fun _ => rfl, fun _ => rfl⟩

def intEgressTstampCodec : Codec IntEgressTstamp :=
  along be64 ⟨IntEgressTstamp.mk, IntEgressTstamp.egressTstamp, fun _ => rfl, fun _ => rfl⟩

def intLevel2PortIdsCodec : Codec IntLevel2PortIds :=
  along (pair be16 be16) ⟨fun p => ⟨p.1, p.2⟩, fun h => (h.ingressPortId, h.egressPortId),
    fun _ => rfl, fun _ => rfl⟩

def intEgressPortTxUtilCodec : Codec IntEgressPortTxUtil :=
  along be32 ⟨IntEgressPortTxUtil.mk, IntEgressPortTxUtil.egressPortTxUtil, fun _ => rfl, fun _ => rfl⟩

def intReportFixedHeaderCodec : Codec IntReportFixedHeader :=
  along
    (pair byte <| pair byte <| pair byte <| pair byte <| pair byte <| pair byte <| pair byte <| pair byte <|
      pair byte <| pair byte <| pair be32 <| pair be32 be64)
    { toFun := fun ⟨ver, len, nprot, repMdBits, reserved, d, q, f, hwId, padding, switchId, seqNum, t⟩ =>
        ⟨ver, len, nprot, repMdBits, reserved, d, q, f, hwId, padding, switchId, seqNum, t⟩
      invFun := fun h => (h.ver, h.len, h.nprot, h.repMdBits, h.reserved, h.d, h.q, h.f, h.hwId,
        h.padding, h.switchId, h.seqNum, h.ingressTstamp)
      left_inv := fun _ => rfl
      right_inv := fun _ => rfl }

end IntPlatform.P4c.HeaderTypes
