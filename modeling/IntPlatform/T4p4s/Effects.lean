import IntPlatform.T4p4s.Switch

namespace IntPlatform.T4p4s.Effects

open Library.Formats Library.HeaderValidity HeaderTypes Parsing Controls Switch

structure NodeMeta where
  switchId : BitVec 32
  ingressPortId : BitVec 16
  egressPortId : BitVec 16
  ingressTstampH : BitVec 32
  ingressTstampL : BitVec 32
  egressTstampH : BitVec 32
  egressTstampL : BitVec 32
deriving DecidableEq, Inhabited, Repr

def nodeMetaCodec : Codec NodeMeta :=
  along
    (pair intSwitchIdCodec <| pair intPortIdsCodec <| pair intIngressTstampCodec intEgressTstampCodec)
    { toFun := fun ⟨i, p, t, u⟩ => ⟨i.switchId, p.ingressPortId, p.egressPortId,
        t.ingressTstampH, t.ingressTstampL, u.egressTstampH, u.egressTstampL⟩
      invFun := fun m => (⟨m.switchId⟩, ⟨m.ingressPortId, m.egressPortId⟩,
        ⟨m.ingressTstampH, m.ingressTstampL⟩, ⟨m.egressTstampH, m.egressTstampL⟩)
      left_inv := fun _ => rfl
      right_inv := fun _ => rfl }

def nodeMeta (cfg : Config) (a : Arrival) : NodeMeta :=
  ⟨cfg.switchId, a.ingressPort.setWidth 16, a.egressPort.setWidth 16, a.md.ingressTstampSystemH,
    a.md.ingressTstampSystemL, a.egressTstampH, a.egressTstampL⟩

def growUdp (n : BitVec 16) : Transport → Transport
  | .udp h => .udp { h with len := h.len + n }
  | .tcp h => .tcp h

def clearCsum : Transport → Transport
  | .udp h => .udp { h with csum := 0 }
  | .tcp h => .tcp { h with csum := 0 }

def sourceShim (dscp : BitVec 6) (h : Intl4Shim) : Intl4Shim :=
  { h with intType := intTypeHopByHop, len := 3, dscp := dscp }

def sourceHeader (seq : BitVec 16) (h : IntHeader) : IntHeader :=
  { h with
    ver := intVersion
    rep := 0
    c := 0
    e := 0
    rsvd1 := 1
    rsvd2 := 0
    hopMetadataLen := 0x06
    remainingHopCnt := 0xff
    instructionMask := 0x00cc
    seq := seq }

/-- The source control on the parts of a frame. The INT headers of a frame
that already carries them are overwritten. -/
def configured (seq : BitVec 16) (s : Segments) : Segments :=
  { s with
    ipv4 := { s.ipv4 with dscp := ipv4DscpInt, totalLen := s.ipv4.totalLen + 12 }
    l4 := clearCsum (growUdp 12 s.l4)
    int := some (sourceShim s.ipv4.dscp (read (s.int.map Prod.fst)),
      sourceHeader seq (read (s.int.map Prod.snd))) }

def transitShim (h : Intl4Shim) : Intl4Shim := { h with len := h.len + 6 }

def transitHeader (h : IntHeader) : IntHeader := { h with remainingHopCnt := h.remainingHopCnt - 1 }

/-- The transit control on the parts of a frame: its metadata goes in front of
everything behind the INT header. -/
def transited (m : NodeMeta) (s : Segments) : Segments :=
  match s.int with
  | none => s
  | some (shim, header) =>
      { s with
        ipv4 := { s.ipv4 with totalLen := s.ipv4.totalLen + 24 }
        l4 := growUdp 24 s.l4
        int := some (transitShim shim, transitHeader header)
        payload := nodeMetaCodec.encode m ++ s.payload }

def openChecksum (h : Ipv4) : Ipv4 :=
  let h := ipChecksumSub h.totalLen h
  ipChecksumSub (firstWord h) h

def closeChecksum (h : Ipv4) : Ipv4 :=
  let h := ipChecksumAdd h.totalLen h
  ipChecksumAdd (firstWord h) h

def mapIpv4 (f : Ipv4 → Ipv4) (s : Segments) : Segments := { s with ipv4 := f s.ipv4 }

def effect (cfg : Config) (reg1 : Register) (a : Arrival) (s : Segments) : Segments :=
  let s := mapIpv4 openChecksum s
  let s := if cfg.srcEnable then configured (nextSeq reg1).1 s else s
  let s := transited (nodeMeta cfg a) s
  mapIpv4 closeChecksum s

theorem effect_sourcing (cfg : Config) (reg1 : Register) (a : Arrival) (s : Segments)
    (hsrc : cfg.srcEnable = true) :
    effect cfg reg1 a s = mapIpv4 closeChecksum (transited (nodeMeta cfg a)
      (configured (nextSeq reg1).1 (mapIpv4 openChecksum s))) := by
  rw [effect, hsrc]
  rfl

theorem effect_passing (cfg : Config) (reg1 : Register) (a : Arrival) (s : Segments)
    (hsrc : cfg.srcEnable = false) :
    effect cfg reg1 a s =
      mapIpv4 closeChecksum (transited (nodeMeta cfg a) (mapIpv4 openChecksum s)) := by
  rw [effect, hsrc]
  rfl

theorem mapIpv4_mk (f : Ipv4 → Ipv4) (ethernet : Ethernet) (ipv4 : Ipv4) (l4 : Transport)
    (int : Option (Intl4Shim × IntHeader)) (payload : List Byte) :
    mapIpv4 f ⟨ethernet, ipv4, l4, int, payload⟩ = ⟨ethernet, f ipv4, l4, int, payload⟩ := rfl

theorem openChecksum_rest (h : Ipv4) : ∃ checksum, openChecksum h = { h with checksum := checksum } :=
  ⟨_, rfl⟩

theorem closeChecksum_rest (h : Ipv4) : ∃ checksum, closeChecksum h = { h with checksum := checksum } :=
  ⟨_, rfl⟩

def stacked (m : Option NodeMeta) (s : Segments) : Headers :=
  { s.headers with
    intSwitchId := m.map fun m => ⟨m.switchId⟩
    intPortIds := m.map fun m => ⟨m.ingressPortId, m.egressPortId⟩
    intIngressTstamp := m.map fun m => ⟨m.ingressTstampH, m.ingressTstampL⟩
    intEgressTstamp := m.map fun m => ⟨m.egressTstampH, m.egressTstampL⟩ }

def ingressMeta (cfg : Config) (md : Metadata) (std : StandardMetadata) : NodeMeta :=
  ⟨cfg.switchId, std.ingressPort.setWidth 16, std.egressPort.setWidth 16, md.ingressTstampSystemH,
    md.ingressTstampSystemL, md.egressTstampSystemH, md.egressTstampSystemL⟩

theorem intSource_headers (cfg : Config) (reg1 : Register) (s : Segments) :
    intSource cfg reg1 s.headers =
      if cfg.srcEnable then ((configured (nextSeq reg1).1 s).headers, (nextSeq reg1).2)
      else (s.headers, reg1) := by
  obtain ⟨ethernet, ipv4, l4, int, payload⟩ := s
  cases l4 <;> cases int <;> rfl

theorem intTransit_headers (cfg : Config) (md : Metadata) (std : StandardMetadata) (m : NodeMeta)
    (s : Segments) (hk : cfg.sinkEnable = false) :
    intTransit cfg md std s.headers =
      stacked (if s.int.isSome then some (ingressMeta cfg md std) else none) (transited m s) := by
  obtain ⟨ethernet, ipv4, l4, int, payload⟩ := s
  rw [intTransit, hk]
  cases l4 <;> cases int <;> rfl

theorem ingress_headers (cfg : Config) (reg1 : Register) (md : Metadata) (std : StandardMetadata)
    (a : Arrival) (s : Segments) (hk : cfg.sinkEnable = false) :
    ingress cfg md ⟨s.headers, std, reg1⟩ =
      ⟨stacked (if (effect cfg reg1 a s).int.isSome then some (ingressMeta cfg md std) else none)
        (effect cfg reg1 a s), std, if cfg.srcEnable then (nextSeq reg1).2 else reg1⟩ := by
  have hl4 : (!s.headers.udp.isSome && !s.headers.tcp.isSome) = false := by
    obtain ⟨ethernet, ipv4, l4, int, payload⟩ := s
    cases l4 <;> rfl
  have hopen : onIpv4 (onIpv4 s.headers fun h => ipChecksumSub h.totalLen h)
      (fun h => ipChecksumSub (firstWord h) h) = (mapIpv4 openChecksum s).headers := rfl
  have hclose (m : Option NodeMeta) (t : Segments) :
      onIpv4 (onIpv4 (stacked m t) fun h => ipChecksumAdd h.totalLen h)
        (fun h => ipChecksumAdd (firstWord h) h) = stacked m (mapIpv4 closeChecksum t) := rfl
  have hint (m : NodeMeta) (t : Segments) :
      (mapIpv4 closeChecksum (transited m t)).int.isSome = t.int.isSome := by
    obtain ⟨ethernet, ipv4, l4, int, payload⟩ := t
    cases int <;> rfl
  simp only [ingress, hl4, Bool.false_eq_true, ↓reduceIte, hopen, intSource_headers]
  cases hs : cfg.srcEnable <;>
    simp only [Bool.false_eq_true, ↓reduceIte, effect, hs, hint, hclose,
      intTransit_headers cfg md std (nodeMeta cfg a) _ hk, intSink, hk]

theorem deparserImpl_stacked (m : Option NodeMeta) (s : Segments) (payload : List Byte) :
    deparserImpl (stacked m s) payload =
      { s with payload := (m.elim [] nodeMetaCodec.encode) ++ payload }.frame := by
  obtain ⟨ethernet, ipv4, l4, int, _⟩ := s
  cases m <;> cases l4 <;> cases int <;>
    simp [deparserImpl, stacked, Segments.headers, Segments.frame, Headers.invalid, Transport.udp?,
      Transport.tcp?, Transport.encode, intBytes, nodeMetaCodec, along, pair]

theorem effect_payload (cfg : Config) (reg1 : Register) (a : Arrival) (s : Segments) :
    (effect cfg reg1 a s).payload =
      (if (effect cfg reg1 a s).int.isSome then some (nodeMeta cfg a) else none).elim []
        nodeMetaCodec.encode ++ s.payload := by
  have ht (m : NodeMeta) (t : Segments) : (mapIpv4 closeChecksum (transited m t)).payload =
      (if (mapIpv4 closeChecksum (transited m t)).int.isSome then some m else none).elim []
        nodeMetaCodec.encode ++ t.payload := by
    obtain ⟨ethernet, ipv4, l4, int, payload⟩ := t
    cases int <;> rfl
  cases hs : cfg.srcEnable <;> simp only [effect, hs] <;> exact ht _ _

/-- A source or transit node turns an accepted frame into the frame of its
effect on the parts. -/
theorem v1Switch_frame (cfg : Config) (reg1 : Register) (a : Arrival) (s : Segments)
    (hs : s.Accepted) (hk : cfg.sinkEnable = false) :
    v1Switch cfg reg1 a s.frame = .ok ⟨some (effect cfg reg1 a s).frame,
      if cfg.srcEnable then (nextSeq reg1).2 else reg1⟩ := by
  rw [v1Switch, parserImpl_frame a.md s hs]
  have hi := ingress_headers cfg reg1 (s.metadata a.md) a.std a s hk
  have he : egress (a.atEgress (s.metadata a.md))
      (stacked (if (effect cfg reg1 a s).int.isSome then
        some (ingressMeta cfg (s.metadata a.md) a.std) else none) (effect cfg reg1 a s)) =
      stacked (if (effect cfg reg1 a s).int.isSome then some (nodeMeta cfg a) else none)
        (effect cfg reg1 a s) := by
    cases (effect cfg reg1 a s).int <;> rfl
  have hp := effect_payload cfg reg1 a s
  have hd := deparserImpl_stacked
    (if (effect cfg reg1 a s).int.isSome then some (nodeMeta cfg a) else none)
    (effect cfg reg1 a s) s.payload
  rw [← hp] at hd
  change Except.ok _ = _
  rw [hi, he, hd]
  rfl

end IntPlatform.T4p4s.Effects
