import IntPlatform.T4p4s.Controls

namespace IntPlatform.T4p4s.Switch

open Library.Formats Library.HeaderValidity HeaderTypes Parsing Controls

def ipChecksumSub (value : BitVec 16) (h : Ipv4) : Ipv4 :=
  let c := ~~~h.checksum
  let c := if c < value then c - 1#16 else c
  let c := c - value
  { h with checksum := ~~~c }

def ipChecksumAdd (value : BitVec 16) (h : Ipv4) : Ipv4 :=
  let c := ~~~h.checksum
  let c := c + value
  let c := if c < value then c + 1#16 else c
  { h with checksum := ~~~c }

/-- The first header word, hdr.ipv4.version ++ ihl ++ dscp ++ ecn. -/
def firstWord (h : Ipv4) : BitVec 16 := h.version ++ h.ihl ++ h.dscp ++ h.ecn

structure IngressState where
  hdr : Headers
  std : StandardMetadata
  reg1 : Register
deriving DecidableEq, Repr

def onIpv4 (hdr : Headers) (f : Ipv4 → Ipv4) : Headers := { hdr with ipv4 := write hdr.ipv4 f }

def ingress (cfg : Config) (md : Metadata) (s : IngressState) : IngressState :=
  if !s.hdr.udp.isSome && !s.hdr.tcp.isSome then s
  else
    let hdr := onIpv4 s.hdr fun h => ipChecksumSub h.totalLen h
    let hdr := onIpv4 hdr fun h => ipChecksumSub (firstWord h) h
    let (hdr, reg1) := intSource cfg s.reg1 hdr
    let hdr := intTransit cfg md s.std hdr
    let hdr := onIpv4 hdr fun h => ipChecksumAdd h.totalLen h
    let hdr := onIpv4 hdr fun h => ipChecksumAdd (firstWord h) h
    let (hdr, std) := intSink cfg md s.std hdr
    ⟨hdr, std, reg1⟩

def egress (md : Metadata) (hdr : Headers) : Headers :=
  { hdr with
    intEgressTstamp := write hdr.intEgressTstamp fun _ =>
      ⟨md.egressTstampSystemH, md.egressTstampSystemL⟩ }

/-- What the target supplies along with a frame. It fills the egress
timestamps of the metadata again between ingress and egress. -/
structure Arrival where
  ingressPort : BitVec 9
  egressPort : BitVec 9
  md : Metadata
  egressTstampH : BitVec 32
  egressTstampL : BitVec 32
deriving DecidableEq, Repr

def Arrival.std (a : Arrival) : StandardMetadata := ⟨a.ingressPort, a.egressPort, false⟩

def Arrival.atEgress (a : Arrival) (md : Metadata) : Metadata :=
  { md with egressTstampSystemH := a.egressTstampH, egressTstampSystemL := a.egressTstampL }

structure Output where
  frame : Option (List Byte)
  reg1 : Register
deriving DecidableEq, Repr

def v1Switch (cfg : Config) (reg1 : Register) (a : Arrival) (packet : List Byte) :
    Except ParserError Output := do
  let p ← parserImpl a.md packet
  let s := ingress cfg p.md ⟨p.hdr, a.std, reg1⟩
  let hdr := egress (a.atEgress p.md) s.hdr
  pure ⟨if s.std.drop then none else some (deparserImpl hdr p.rest), s.reg1⟩

end IntPlatform.T4p4s.Switch
