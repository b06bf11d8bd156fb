import IntPlatform.Library.ChecksumUnit
import IntPlatform.P4c.Ingress
import IntPlatform.P4c.Parsing

namespace IntPlatform.P4c.Deparser

open Library.Formats Library.HeaderValidity Library.ChecksumUnit HeaderTypes Parsing Ingress

def ipv4Checksum (source : Bool) (hdr : Headers) : BitVec 16 :=
  let ck := InternetChecksum.clear
  let ck := ck.subtract (field be16 (read hdr.ipv4).hdrChecksum)
  let ck := ck.subtract (field be16 (read hdr.ckHelper).oldTotalLen)
  let ck :=
    if source then
      let ck := ck.subtract (field be16 (read hdr.ckHelper).oldDscp)
      ck.add (field be16 (read hdr.ckHelper).ipv4Dscp)
    else ck
  let ck := ck.add (field be16 (read hdr.ipv4).totalLen)
  ck.get

def sourceData (shim : Intl4Shim) (h : TransitIntHeader) : List (BitVec 16) :=
  field byte shim.intType ++ field byte shim.rsvd1 ++ field byte shim.dscp ++ field byte shim.rsvd3 ++
    field byte h.ver ++ field byte h.rep ++ field be16 h.cE ++ field be16 h.mRsvd1 ++
    field be16 h.rsvd2 ++ field be16 h.hopInfo ++ field be16 h.instructionMask ++ field be16 h.rsvd3

def nodeData (n : NodeMetadata) : List (BitVec 16) :=
  field be32 (read n.intSwitchId).switchId ++ field be16 (read n.intPortIds).ingressPortId ++
    field be16 (read n.intPortIds).egressPortId ++ field be32 (read n.intHopLatency).hopLatency ++
    field byte (read n.intQOccupancy).qId ++ field be24 (read n.intQOccupancy).qOccupancy ++
    field be64 (read n.intIngressTstamp).ingressTstamp ++
    field be64 (read n.intEgressTstamp).egressTstamp ++
    field be16 (read n.intLevel2PortIds).ingressPortId ++
    field be16 (read n.intLevel2PortIds).egressPortId ++
    field be32 (read n.intEgressPortTxUtil).egressPortTxUtil

def openUdp (hdr : Headers) : InternetChecksum :=
  let ck := InternetChecksum.clear
  let ck := ck.subtract (field be16 (read hdr.udp).csum)
  let ck := ck.subtract (field be16 (read hdr.ckHelper).oldUdpLen)
  ck.subtract (field be16 (read hdr.ckHelper).oldUdpLen)

/-- The second checksum of the deparser. At a source it also writes rsvd3. -/
def udpChecksum (source : Bool) (hdr : Headers) : Headers :=
  let ck := openUdp hdr
  let hdr :=
    if source then
      { hdr with transitIntHeader := write hdr.transitIntHeader fun h => { h with rsvd3 := ck.get } }
    else hdr
  let ck :=
    if source then ck.add (sourceData (read hdr.intShim) (read hdr.transitIntHeader))
    else
      let ck := ck.subtract (field byte (read hdr.ckHelper).oldShimLen)
      ck.subtract (field be16 (read hdr.ckHelper).oldHop)
  let ck := ck.add (field be16 (read hdr.udp).len ++ field be16 (read hdr.udp).len ++
    field byte (read hdr.intShim).len ++ field be16 (read hdr.transitIntHeader).hopInfo ++
    nodeData hdr.node)
  { hdr with udp := write hdr.udp fun h => { h with csum := ck.get } }

def emitNode (n : NodeMetadata) : List Byte :=
  emit intSwitchIdCodec n.intSwitchId ++ emit intPortIdsCodec n.intPortIds ++
    emit intHopLatencyCodec n.intHopLatency ++ emit intQOccupancyCodec n.intQOccupancy ++
    emit intIngressTstampCodec n.intIngressTstamp ++ emit intEgressTstampCodec n.intEgressTstamp ++
    emit intLevel2PortIdsCodec n.intLevel2PortIds ++
    emit intEgressPortTxUtilCodec n.intEgressPortTxUtil

def emitReport (hdr : Headers) : List Byte :=
  emit ethernetCodec hdr.reportEthernet ++ emit ipv4Codec hdr.reportIpv4 ++
    emit udpCodec hdr.reportUdp ++ emit intReportFixedHeaderCodec hdr.reportFixedHeader

def emitOriginal (hdr : Headers) : List Byte :=
  emit ethernetCodec hdr.ethernet ++ emit ipv4Codec hdr.ipv4 ++ emit udpCodec hdr.udp ++
    emit tcpCodec hdr.tcp ++ emit intl4ShimCodec hdr.intShim ++
    emit transitIntHeaderCodec hdr.transitIntHeader ++ emitNode hdr.node

def myIngressDeparser (p : Program) (hdr : Headers) (payload : List Byte) : List Byte :=
  let hdr := { hdr with
    ipv4 := write hdr.ipv4 fun h => { h with hdrChecksum := ipv4Checksum p.source hdr } }
  let hdr := udpChecksum p.source hdr
  (if hdr.transitIntHeader.isSome && p.sink then emitReport hdr else []) ++ emitOriginal hdr ++ payload

structure Arrival where
  istd : InputMetadata
  egressPort : BitVec 16
deriving DecidableEq, Repr

structure Output where
  frame : List Byte
  egressPort : BitVec 16
  reportSeqNum : BitVec 32
deriving DecidableEq, Repr

def ingressPipeline (p : Program) (t : Tables) (reportSeqNum : BitVec 32) (a : Arrival)
    (packet : List Byte) : Option Output := do
  let r ← myIngressParser packet
  let s := myIngress p t a.istd ⟨r.hdr, r.metadata, a.egressPort, reportSeqNum⟩
  pure ⟨myIngressDeparser p s.hdr r.rest, s.egressPort, s.reportSeqNum⟩

end IntPlatform.P4c.Deparser
