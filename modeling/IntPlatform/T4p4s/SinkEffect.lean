import IntPlatform.T4p4s.Path

namespace IntPlatform.T4p4s.SinkEffect

open Library.Formats Library.HeaderValidity HeaderTypes Parsing Controls Switch Effects T4p4s.Path

/-- Only TCP has a sequence number to report. -/
def reportedSeq : Transport → BitVec 32
  | .udp _ => 0
  | .tcp h => h.seqNum

def reportHeader (a : Arrival) (s : Segments) : Influx where
  srcAddr := s.ipv4.srcAddr
  dstAddr := s.ipv4.dstAddr
  ingressPortId := s.l4.srcPort
  egressPortId := s.l4.dstPort
  metaLen := (read (s.int.map Prod.fst)).len - 3
  resv1 := 0
  hopMetaLen := (read (s.int.map Prod.snd)).hopMetadataLen
  rsvd2 := 0
  ndkTstampH := a.md.ingressTstampSystemH
  ndkTstampL := a.md.ingressTstampSystemL
  delayH := a.md.ingressTstampSystemH
  delayL := a.md.ingressTstampSystemL
  seq := reportedSeq s.l4

def reportFrame (a : Arrival) (s : Segments) : List Byte :=
  ethernetCodec.encode { s.ethernet with etherType := 0xffff } ++
    (influxCodec.encode (reportHeader a s) ++ s.payload)

def reportHeaders (a : Arrival) (s : Segments) : Headers :=
  { Headers.invalid with
    ethernet := some { s.ethernet with etherType := 0xffff }
    influx := some (reportHeader a s) }

def sinkParts (cfg : Config) (reg1 : Register) (s : Segments) : Segments :=
  if cfg.srcEnable then configured (nextSeq reg1).1 s else s

theorem ingress_sink (cfg : Config) (reg1 : Register) (a : Arrival) (s : Segments)
    (hk : cfg.sinkEnable = true) :
    ingress cfg (s.metadata a.md) ⟨s.headers, a.std, reg1⟩ =
      ⟨reportHeaders a (sinkParts cfg reg1 s), a.std,
        if cfg.srcEnable then (nextSeq reg1).2 else reg1⟩ := by
  obtain ⟨ethernet, ipv4, l4, int, payload⟩ := s
  obtain ⟨srcEnable, sinkEnable, switchId⟩ := cfg
  dsimp only at hk
  subst hk
  cases srcEnable <;> cases l4 <;> cases int <;> rfl

/-- A sink node replaces the headers of a UDP or TCP frame by a report header,
also if it is a source as well. -/
theorem forward_sink_parts (hop : Hop) (s : Segments) (hs : s.Accepted) (hk : hop.cfg.sinkEnable = true) :
    hop.forward s.frame = some (reportFrame hop.arrival (sinkParts hop.cfg hop.reg1 s)) := by
  have hpay : (sinkParts hop.cfg hop.reg1 s).payload = s.payload := by
    rw [sinkParts]
    split <;> rfl
  have hd : deparserImpl (egress (hop.arrival.atEgress (s.metadata hop.arrival.md))
      (reportHeaders hop.arrival (sinkParts hop.cfg hop.reg1 s))) s.payload =
        reportFrame hop.arrival (sinkParts hop.cfg hop.reg1 s) := by
    simp [deparserImpl, egress, reportHeaders, Headers.invalid, reportFrame, hpay]
  have hv : v1Switch hop.cfg hop.reg1 hop.arrival s.frame =
      .ok ⟨some (reportFrame hop.arrival (sinkParts hop.cfg hop.reg1 s)),
        if hop.cfg.srcEnable then (nextSeq hop.reg1).2 else hop.reg1⟩ := by
    rw [v1Switch, parserImpl_frame hop.arrival.md s hs]
    change Except.ok _ = _
    rw [ingress_sink hop.cfg hop.reg1 hop.arrival s hk, hd]
    rfl
  rw [Hop.forward, hv]

theorem forward_sink (hop : Hop) (s : Segments) (hs : s.Accepted)
    (hsrc : hop.cfg.srcEnable = false) (hk : hop.cfg.sinkEnable = true) :
    hop.forward s.frame = some (reportFrame hop.arrival s) := by
  rw [forward_sink_parts hop s hs hk, sinkParts, hsrc]
  rfl

end IntPlatform.T4p4s.SinkEffect
