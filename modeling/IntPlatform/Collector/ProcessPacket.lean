import IntPlatform.Collector.Records

namespace IntPlatform.Collector.ProcessPacket

open Library.Formats Records

variable {slots : Nat}

def getIntHeaderData (tmpHdr : TelemetricHdr) (flowMap : BitVec 64 → MetaData) (intHdr : IntInflux)
    (mapKey : BitVec 64) : TelemetricHdr × (BitVec 64 → MetaData) :=
  let tmpHdr := { tmpHdr with
    dstTs := ntoh64 intHdr.ndkTstamp
    srcIp := inetNtop intHdr.srcAddr
    dstIp := inetNtop intHdr.dstAddr
    srcPort := ntohs intHdr.ingressPortId
    dstPort := ntohs intHdr.egressPortId }
  let metaTmp := flowMap mapKey
  let tmpHdr := { tmpHdr with
    delay := 0
    seqNum := (ntohl intHdr.seq).setWidth 64
    sinkJitter := tmpHdr.dstTs - metaTmp.prevDstTs }
  let tmpHdr :=
    if tmpHdr.seqNum = 0 then
      { tmpHdr with reordering := 0, seqNum := metaTmp.seq + 1, protocol := 17 }
    else
      { tmpHdr with reordering := tmpHdr.seqNum - metaTmp.seq - 1, protocol := 6 }
  (tmpHdr, Function.update flowMap mapKey ⟨tmpHdr.seqNum, tmpHdr.dstTs⟩)

def exchange (prevTimestamps : Timestamps slots) (i : Nat) (ts : BitVec 64) :
    Except Fault (BitVec 64 × Timestamps slots) :=
  if h : i < slots then
    .ok (prevTimestamps ⟨i, h⟩, Function.update prevTimestamps ⟨i, h⟩ ts)
  else
    .error .indexOutOfRange

structure NodeLoop (slots : Nat) where
  tmpEgTimestamp : BitVec 64
  prevTimestamps : Timestamps slots
  nodeMeta : List TelemetricMeta

def nodeIteration (i : Nat) (h : IntMeta) (s : NodeLoop slots) : Except Fault (NodeLoop slots) := do
  let ingress := ntoh64 h.ingressTstamp
  let egress := ntoh64 h.egressTstamp
  -- There is no previous timestamp for the first node.
  let (linkDelay, tmpEg) := if i = 0 then (0, s.tmpEgTimestamp) else (s.tmpEgTimestamp - ingress, egress)
  let (prev, prevTimestamps) ← exchange s.prevTimestamps i ingress
  let node := ⟨linkDelay, egress - ingress, ingress - prev, BitVec.ofNat 8 i, egress⟩
  pure ⟨tmpEg, prevTimestamps, s.nodeMeta ++ [node]⟩

def nodeLoop : Nat → Nat → List Byte → NodeLoop slots → Except Fault (NodeLoop slots)
  | 0, _, _, s => pure s
  | n + 1, i, p, s => do
      let (h, p) ← deref intMetaCodec p
      let s ← nodeIteration i h s
      nodeLoop n (i + 1) p s

def getIntNodeData (tmpHdr : TelemetricHdr) (prevTimestamps : Timestamps slots) (p : List Byte)
    (metaCnt : BitVec 8) : Except Fault (TelemetricHdr × Timestamps slots) := do
  let (first, _) ← deref intMetaCodec p
  let tmpHdr := { tmpHdr with origTs := ntoh64 first.ingressTstamp }
  let tmpHdr := { tmpHdr with delay := tmpHdr.dstTs - tmpHdr.origTs }
  let s ← nodeLoop metaCnt.toNat 0 p ⟨ntoh64 first.egressTstamp, prevTimestamps, tmpHdr.nodeMeta⟩
  let (prev, prevTimestamps) ← exchange s.prevTimestamps metaCnt.toNat tmpHdr.dstTs
  let node := ⟨s.tmpEgTimestamp - tmpHdr.dstTs, 0, tmpHdr.dstTs - prev, metaCnt, tmpHdr.dstTs⟩
  pure ({ tmpHdr with nodeMeta := s.nodeMeta ++ [node] }, prevTimestamps)

def cutTimestamps (opt : Options) (tmpHdr : TelemetricHdr) : TelemetricHdr :=
  if opt.tstmp = 1 then
    { tmpHdr with
      origTs := tmpHdr.origTs &&& 0x0000ffffffffffff
      dstTs := tmpHdr.dstTs &&& 0x0000ffffffffffff }
  else tmpHdr

/-- Everything up to the call of report_to_influx, with the record that is
passed to it. -/
def processPacket (opt : Options) (st : Globals slots) (buff : List Byte) :
    Except Fault (TelemetricHdr × Globals slots) := do
  let (intHdr, intMetaHdr) ← deref intInfluxCodec (buff.drop 14)
  let (mapKey, _) ← deref le64 (buff.drop 14)
  let (tmpHdr, flowMap) := getIntHeaderData default st.flowMap intHdr mapKey
  if intHdr.hopMetaLen = 0 then throw .divisionByZero
  let metaCnt := intHdr.metaLen / intHdr.hopMetaLen
  let (tmpHdr, prevTimestamps) ← getIntNodeData tmpHdr st.prevTimestamps intMetaHdr metaCnt
  pure (cutTimestamps opt tmpHdr, { st with flowMap := flowMap, prevTimestamps := prevTimestamps })

/-- A received frame overwrites the front of the buffer and is cut at its end. -/
def recvfrom (frame buffer : List Byte) : List Byte :=
  (frame ++ buffer.drop frame.length).take pktBufSize

def hopOf (m : TelemetricMeta) : BitVec 8 × BitVec 64 × BitVec 64 :=
  (m.hopIndex, m.hopDelay, m.hopTimestamp)

def hopOfNode (i : Nat) (h : IntMeta) : BitVec 8 × BitVec 64 × BitVec 64 :=
  (BitVec.ofNat 8 i, ntoh64 h.egressTstamp - ntoh64 h.ingressTstamp, ntoh64 h.egressTstamp)

end IntPlatform.Collector.ProcessPacket
