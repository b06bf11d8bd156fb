import IntPlatform.Library.HeaderValidity

namespace IntPlatform.T4p4s.HeaderTypes

open Library.Formats Library.HeaderValidity

structure Ethernet where
  dstAddr : BitVec 48
  srcAddr : BitVec 48
  etherType : BitVec 16
deriving DecidableEq, Inhabited, Repr

structure Ipv4 where
  version : BitVec 4
  ihl : BitVec 4
  dscp : BitVec 6
  ecn : BitVec 2
  totalLen : BitVec 16
  id : BitVec 16
  flags : BitVec 3
  fragOffset : BitVec 13
  ttl : BitVec 8
  protocol : BitVec 8
  checksum : BitVec 16
  srcAddr : BitVec 32
  dstAddr : BitVec 32
deriving DecidableEq, Inhabited, Repr

structure Udp where
  srcPort : BitVec 16
  dstPort : BitVec 16
  len : BitVec 16
  csum : BitVec 16
deriving DecidableEq, Inhabited, Repr

structure Tcp where
  srcPort : BitVec 16
  dstPort : BitVec 16
  seqNum : BitVec 32
  ackNum : BitVec 32
  dataOffset : BitVec 4
  reserved : BitVec 3
  flags : BitVec 9
  winSize : BitVec 16
  csum : BitVec 16
  urgPoint : BitVec 16
deriving DecidableEq, Inhabited, Repr

def ipv4DscpInt : BitVec 6 := 0x20
def intShimHeaderLenBytes : BitVec 16 := 4
def intTypeHopByHop : BitVec 8 := 1

structure Intl4Shim where
  intType : BitVec 8
  rsvd1 : BitVec 8
  len : BitVec 8
  dscp : BitVec 6
  rsvd3 : BitVec 2
deriving DecidableEq, Inhabited, Repr

def intHeaderLenBytes : BitVec 16 := 8
def intVersion : BitVec 4 := 1

structure IntHeader where
  ver : BitVec 4
  rep : BitVec 2
  c : BitVec 1
  e : BitVec 1
  m : BitVec 1
  rsvd1 : BitVec 7
  rsvd2 : BitVec 3
  hopMetadataLen : BitVec 5
  remainingHopCnt : BitVec 8
  instructionMask : BitVec 16
  seq : BitVec 16
deriving DecidableEq, Inhabited, Repr

def intAllHeaderLenBytes : BitVec 16 := intShimHeaderLenBytes + intHeaderLenBytes

structure IntSwitchId where
  switchId : BitVec 32
deriving DecidableEq, Inhabited, Repr

structure IntPortIds where
  ingressPortId : BitVec 16
  egressPortId : BitVec 16
deriving DecidableEq, Inhabited, Repr

structure IntHopLatency where
  hopLatency : BitVec 32
deriving DecidableEq, Inhabited, Repr

structure IntQOccupancy where
  qId : BitVec 8
  qOccupancy : BitVec 24
deriving DecidableEq, Inhabited, Repr

structure IntIngressTstamp where
  ingressTstampH : BitVec 32
  ingressTstampL : BitVec 32
deriving DecidableEq, Inhabited, Repr

structure IntEgressTstamp where
  egressTstampH : BitVec 32
  egressTstampL : BitVec 32
deriving DecidableEq, Inhabited, Repr

structure IntLevel2PortIds where
  ingressPortId : BitVec 16
  egressPortId : BitVec 16
deriving DecidableEq, Inhabited, Repr

structure IntEgressPortTxUtil where
  egressPortTxUtil : BitVec 32
deriving DecidableEq, Inhabited, Repr

structure Influx where
  srcAddr : BitVec 32
  dstAddr : BitVec 32
  ingressPortId : BitVec 16
  egressPortId : BitVec 16
  metaLen : BitVec 8
  resv1 : BitVec 3
  hopMetaLen : BitVec 5
  rsvd2 : BitVec 16
  ndkTstampH : BitVec 32
  ndkTstampL : BitVec 32
  delayH : BitVec 32
  delayL : BitVec 32
  seq : BitVec 32
deriving DecidableEq, Inhabited, Repr

def ethernetCodec : Codec Ethernet :=
  along (pair be48 (pair be48 be16))
    { toFun := fun ⟨dst, src, t⟩ => ⟨dst, src, t⟩
      invFun := fun h => (h.dstAddr, h.srcAddr, h.etherType)
      left_inv := fun _ => rfl
      right_inv := fun _ => rfl }

def ipv4Codec : Codec Ipv4 :=
  along
    (pair (cut (w := 4) (v := 4) byte) <| pair (cut (w := 6) (v := 2) byte) <| pair be16 <|
      pair be16 <| pair (cut (w := 3) (v := 13) be16) <| pair byte <| pair byte <| pair be16 <|
      pair be32 be32)
    { toFun := fun ⟨⟨version, ihl⟩, ⟨dscp, ecn⟩, totalLen, id, ⟨flags, fragOffset⟩, ttl, protocol,
        checksum, src, dst⟩ =>
        ⟨version, ihl, dscp, ecn, totalLen, id, flags, fragOffset, ttl, protocol, checksum, src, dst⟩
      invFun := fun h => ((h.version, h.ihl), (h.dscp, h.ecn), h.totalLen, h.id,
        (h.flags, h.fragOffset), h.ttl, h.protocol, h.checksum, h.srcAddr, h.dstAddr)
      left_inv := fun _ => rfl
      right_inv := fun _ => rfl }

def udpCodec : Codec Udp :=
  along (pair be16 <| pair be16 <| pair be16 be16)
    { toFun := fun ⟨src, dst, len, csum⟩ => ⟨src, dst, len, csum⟩
      invFun := fun h => (h.srcPort, h.dstPort, h.len, h.csum)
      left_inv := fun _ => rfl
      right_inv := fun _ => rfl }

def tcpCodec : Codec Tcp :=
  along
    (pair be16 <| pair be16 <| pair be32 <| pair be32 <| pair (cut3 (u := 4) (v := 3) (w := 9) be16) <|
      pair be16 <| pair be16 be16)
    { toFun := fun ⟨src, dst, seqNum, ackNum, ⟨dataOffset, reserved, flags⟩, win, csum, urg⟩ =>
        ⟨src, dst, seqNum, ackNum, dataOffset, reserved, flags, win, csum, urg⟩
      invFun := fun h => (h.srcPort, h.dstPort, h.seqNum, h.ackNum,
        (h.dataOffset, h.reserved, h.flags), h.winSize, h.csum, h.urgPoint)
      left_inv := fun _ => rfl
      right_inv := fun _ => rfl }

def intl4ShimCodec : Codec Intl4Shim :=
  along (pair byte <| pair byte <| pair byte (cut (w := 6) (v := 2) byte))
    { toFun := fun ⟨intType, rsvd1, len, dscp, rsvd3⟩ => ⟨intType, rsvd1, len, dscp, rsvd3⟩
      invFun := fun h => (h.intType, h.rsvd1, h.len, h.dscp, h.rsvd3)
      left_inv := fun _ => rfl
      right_inv := fun _ => rfl }

def intHeaderCodec : Codec IntHeader :=
  along
    (pair (cut4 (t := 4) (u := 2) (v := 1) (w := 1) byte) <| pair (cut (w := 1) (v := 7) byte) <|
      pair (cut (w := 3) (v := 5) byte) <| pair byte <| pair be16 be16)
    { toFun := fun ⟨⟨ver, rep, c, e⟩, ⟨m, rsvd1⟩, ⟨rsvd2, hopMetadataLen⟩, remaining, mask, seq⟩ =>
        ⟨ver, rep, c, e, m, rsvd1, rsvd2, hopMetadataLen, remaining, mask, seq⟩
      invFun := fun h => ((h.ver, h.rep, h.c, h.e), (h.m, h.rsvd1), (h.rsvd2, h.hopMetadataLen),
        h.remainingHopCnt, h.instructionMask, h.seq)
      left_inv := fun _ => rfl
      right_inv := fun _ => rfl }

def intSwitchIdCodec : Codec IntSwitchId :=
  along be32 ⟨IntSwitchId.mk, IntSwitchId.switchId, fun _ => rfl, fun _ => rfl⟩

def intPortIdsCodec : Codec IntPortIds :=
  along (pair be16 be16) ⟨fun p => ⟨p.1, p.2⟩, fun h => (h.ingressPortId, h.egressPortId),
    fun _ => rfl, fun _ => rfl⟩

def intHopLatencyCodec : Codec IntHopLatency :=
  along be32 ⟨IntHopLatency.mk, IntHopLatency.hopLatency, fun _ => rfl, fun _ => rfl⟩

def intQOccupancyCodec : Codec IntQOccupancy :=
  along (pair byte be24) ⟨fun p => ⟨p.1, p.2⟩, fun h => (h.qId, h.qOccupancy), fun _ => rfl, fun _ => rfl⟩

def intIngressTstampCodec : Codec IntIngressTstamp :=
  along (pair be32 be32) ⟨fun p => ⟨p.1, p.2⟩, fun h => (h.ingressTstampH, h.ingressTstampL),
    fun _ => rfl, fun _ => rfl⟩

def intEgressTstampCodec : Codec IntEgressTstamp :=
  along (pair be32 be32) ⟨fun p => ⟨p.1, p.2⟩, fun h => (h.egressTstampH, h.egressTstampL),
    fun _ => rfl, fun _ => rfl⟩

def intLevel2PortIdsCodec : Codec IntLevel2PortIds :=
  along (pair be16 be16) ⟨fun p => ⟨p.1, p.2⟩, fun h => (h.ingressPortId, h.egressPortId),
    fun _ => rfl, fun _ => rfl⟩

def intEgressPortTxUtilCodec : Codec IntEgressPortTxUtil :=
  along be32 ⟨IntEgressPortTxUtil.mk, IntEgressPortTxUtil.egressPortTxUtil, fun _ => rfl, fun _ => rfl⟩

def influxCodec : Codec Influx :=
  along
    (pair be32 <| pair be32 <| pair be16 <| pair be16 <| pair byte <|
      pair (cut (w := 3) (v := 5) byte) <| pair be16 <| pair be32 <| pair be32 <| pair be32 <|
      pair be32 be32)
    { toFun := fun ⟨src, dst, inPort, outPort, metaLen, ⟨resv1, hopMetaLen⟩, rsvd2, tsH, tsL, dH, dL, seq⟩ =>
        ⟨src, dst, inPort, outPort, metaLen, resv1, hopMetaLen, rsvd2, tsH, tsL, dH, dL, seq⟩
      invFun := fun h => (h.srcAddr, h.dstAddr, h.ingressPortId, h.egressPortId, h.metaLen,
        (h.resv1, h.hopMetaLen), h.rsvd2, h.ndkTstampH, h.ndkTstampL, h.delayH, h.delayL, h.seq)
      left_inv := fun _ => rfl
      right_inv := fun _ => rfl }

structure Layer34Metadata where
  l4Src : BitVec 16
  l4Dst : BitVec 16
  dscp : BitVec 6
deriving DecidableEq, Inhabited, Repr

structure Metadata where
  ingressTstampSystemH : BitVec 32
  ingressTstampSystemL : BitVec 32
  egressTstampSystemH : BitVec 32
  egressTstampSystemL : BitVec 32
  layer34Metadata : Layer34Metadata
deriving DecidableEq, Inhabited, Repr

structure Headers where
  ethernet : Header Ethernet
  ipv4 : Header Ipv4
  tcp : Header Tcp
  udp : Header Udp
  intShim : Header Intl4Shim
  intHeader : Header IntHeader
  intEgressPortTxUtil : Header IntEgressPortTxUtil
  intEgressTstamp : Header IntEgressTstamp
  intHopLatency : Header IntHopLatency
  intIngressTstamp : Header IntIngressTstamp
  intPortIds : Header IntPortIds
  intLevel2PortIds : Header IntLevel2PortIds
  intQOccupancy : Header IntQOccupancy
  intSwitchId : Header IntSwitchId
  influx : Header Influx
deriving DecidableEq, Repr

def Headers.invalid : Headers :=
  ⟨none, none, none, none, none, none, none, none, none, none, none, none, none, none, none⟩

end IntPlatform.T4p4s.HeaderTypes
