import IntPlatform.T4p4s.Parsing

namespace IntPlatform.T4p4s.Controls

open Library.Formats Library.HeaderValidity HeaderTypes Parsing

/-- The compile-time defines of config.p4. -/
structure Config where
  srcEnable : Bool
  sinkEnable : Bool
  switchId : BitVec 32
deriving DecidableEq, Repr

structure StandardMetadata where
  ingressPort : BitVec 9
  egressPort : BitVec 9
  drop : Bool
deriving DecidableEq, Repr

/-- The one-element register of the source control. On the target that its
comment describes, read returns the stored bytes in the other order. -/
structure Register where
  swapped : Bool
  content : BitVec 16
deriving DecidableEq, Repr

namespace Register

def byteSwap (v : BitVec 16) : BitVec 16 := v.extractLsb' 0 8 ++ v.extractLsb' 8 8

def read (r : Register) : BitVec 16 := if r.swapped then byteSwap r.content else r.content

def write (r : Register) (v : BitVec 16) : Register := { r with content := v }

end Register

/-- The register part of configure_source, where each value is read and
written twice. The result is int_header.seq and the register after it. -/
def nextSeq (reg1 : Register) : BitVec 16 × Register :=
  let seq := reg1.read
  let reg1 := reg1.write seq
  let seq := reg1.read
  let seq := seq + 1
  (seq, reg1.write seq)

def configureSource (reg1 : Register) (hdr : Headers) : Headers × Register :=
  let (seq, reg1) := nextSeq reg1
  ({ hdr with
      intShim := write (setValid hdr.intShim) fun h =>
        { h with
          intType := intTypeHopByHop
          len := intAllHeaderLenBytes.setWidth 8 >>> 2
          dscp := (read hdr.ipv4).dscp }
      intHeader := write (setValid hdr.intHeader) fun h =>
        { h with
          ver := intVersion
          rep := 0
          c := 0
          e := 0
          rsvd1 := 1
          rsvd2 := 0
          hopMetadataLen := 0x06
          remainingHopCnt := 0xff
          instructionMask := 0x00cc
          seq := seq }
      ipv4 := write hdr.ipv4 fun h =>
        { h with dscp := ipv4DscpInt, totalLen := h.totalLen + intAllHeaderLenBytes }
      udp := write hdr.udp fun h => { h with len := h.len + intAllHeaderLenBytes, csum := 0 }
      tcp := write hdr.tcp fun h => { h with csum := 0 } }, reg1)

/-- Every entry of tb_int_source, and its default, runs configure_source. -/
def intSource (cfg : Config) (reg1 : Register) (hdr : Headers) : Headers × Register :=
  if cfg.srcEnable then configureSource reg1 hdr else (hdr, reg1)

def intSetHeader0 (cfg : Config) (hdr : Headers) : Headers :=
  { hdr with intSwitchId := write (setValid hdr.intSwitchId) fun _ => ⟨cfg.switchId⟩ }

def intSetHeader1 (std : StandardMetadata) (hdr : Headers) : Headers :=
  { hdr with
    intPortIds := write (setValid hdr.intPortIds) fun _ =>
      ⟨std.ingressPort.setWidth 16, std.egressPort.setWidth 16⟩ }

def intSetHeader4 (md : Metadata) (hdr : Headers) : Headers :=
  { hdr with
    intIngressTstamp := write (setValid hdr.intIngressTstamp) fun _ =>
      ⟨md.ingressTstampSystemH, md.ingressTstampSystemL⟩ }

def intSetHeader5 (md : Metadata) (hdr : Headers) : Headers :=
  { hdr with
    intEgressTstamp := write (setValid hdr.intEgressTstamp) fun _ =>
      ⟨md.egressTstampSystemH, md.egressTstampSystemL⟩ }

-- int_hop_exceeded, which would set the e bit, is not called by any control.
def intHopCntIncrement (hdr : Headers) : Headers :=
  { hdr with
    intHeader := write hdr.intHeader fun h => { h with remainingHopCnt := h.remainingHopCnt - 1 } }

def intTransit (cfg : Config) (md : Metadata) (std : StandardMetadata) (hdr : Headers) : Headers :=
  if !cfg.sinkEnable then
    if !hdr.intHeader.isSome then hdr
    else
      let hdr := intSetHeader0 cfg hdr
      let hdr := intSetHeader1 std hdr
      let hdr := intSetHeader4 md hdr
      let hdr := intSetHeader5 md hdr
      let hdr := { hdr with
        ipv4 := write hdr.ipv4 fun h => { h with totalLen := h.totalLen + 24 }
        udp := write hdr.udp fun h => { h with len := h.len + 24 }
        intShim := write hdr.intShim fun h => { h with len := h.len + 6 } }
      intHopCntIncrement hdr
  else hdr

def fillInflux (md : Metadata) (hdr : Headers) : Headers :=
  { hdr with
    influx := write hdr.influx fun h =>
      { h with
        srcAddr := (read hdr.ipv4).srcAddr
        dstAddr := (read hdr.ipv4).dstAddr
        ndkTstampH := md.ingressTstampSystemH
        ndkTstampL := md.ingressTstampSystemL
        delayH := md.ingressTstampSystemH
        delayL := md.ingressTstampSystemL
        hopMetaLen := (read hdr.intHeader).hopMetadataLen
        metaLen := (read hdr.intShim).len - 3 }
    ethernet := write hdr.ethernet fun h => { h with etherType := 0xffff }
    ipv4 := setInvalid hdr.ipv4
    intShim := setInvalid hdr.intShim
    intHeader := setInvalid hdr.intHeader }

def removeTcp (hdr : Headers) : Headers :=
  { hdr with
    influx := write (setValid hdr.influx) fun h =>
      { h with
        seq := (read hdr.tcp).seqNum
        ingressPortId := (read hdr.tcp).srcPort
        egressPortId := (read hdr.tcp).dstPort }
    tcp := setInvalid hdr.tcp }

def removeUdp (hdr : Headers) : Headers :=
  { hdr with
    influx := write (setValid hdr.influx) fun h =>
      { h with
        seq := 0
        ingressPortId := (read hdr.udp).srcPort
        egressPortId := (read hdr.udp).dstPort }
    udp := setInvalid hdr.udp }

def markToDrop (std : StandardMetadata) : StandardMetadata := { std with drop := true }

def intSink (cfg : Config) (md : Metadata) (std : StandardMetadata) (hdr : Headers) :
    Headers × StandardMetadata :=
  if cfg.sinkEnable then
    if hdr.tcp.isSome then (fillInflux md (removeTcp hdr), std)
    else if hdr.udp.isSome then (fillInflux md (removeUdp hdr), std)
    else (fillInflux md hdr, markToDrop std)
  else (hdr, std)

end IntPlatform.T4p4s.Controls
