import IntPlatform.T4p4s.HeaderTypes

namespace IntPlatform.T4p4s.Parsing

open Library.Formats Library.HeaderValidity HeaderTypes

inductive ParserError
  | packetTooShort
  | intShimLenTooShort
  | intVersionNotSupported
deriving DecidableEq, Repr

structure Parsed where
  hdr : Headers
  md : Metadata
  rest : List Byte
deriving DecidableEq, Repr

def extract {α : Type} (c : Codec α) (packet : List Byte) : Except ParserError (α × List Byte) :=
  match c.read packet with
  | none => .error .packetTooShort
  | some r => .ok r

def parseIntHeader (p : Parsed) : Except ParserError Parsed := do
  let (h, rest) ← extract intHeaderCodec p.rest
  if h.ver = intVersion then
    pure { p with hdr := { p.hdr with intHeader := some h }, rest := rest }
  else
    throw .intVersionNotSupported

def parseIntShim (p : Parsed) : Except ParserError Parsed := do
  let (h, rest) ← extract intl4ShimCodec p.rest
  if 3#8 ≤ h.len then
    parseIntHeader { p with hdr := { p.hdr with intShim := some h }, rest := rest }
  else
    throw .intShimLenTooShort

def parseTcp (p : Parsed) : Except ParserError Parsed := do
  let (h, rest) ← extract tcpCodec p.rest
  let l := { p.md.layer34Metadata with l4Src := h.srcPort, l4Dst := h.dstPort }
  let p := { hdr := { p.hdr with tcp := some h }, md := { p.md with layer34Metadata := l }, rest := rest }
  if l.dscp = ipv4DscpInt then parseIntShim p else pure p

def parseUdp (p : Parsed) : Except ParserError Parsed := do
  let (h, rest) ← extract udpCodec p.rest
  let l := { p.md.layer34Metadata with l4Src := h.srcPort, l4Dst := h.dstPort }
  let p := { hdr := { p.hdr with udp := some h }, md := { p.md with layer34Metadata := l }, rest := rest }
  if l.dscp = ipv4DscpInt then parseIntShim p else pure p

def parseIpv4 (p : Parsed) : Except ParserError Parsed := do
  let (h, rest) ← extract ipv4Codec p.rest
  let l := { p.md.layer34Metadata with dscp := h.dscp }
  let p := { hdr := { p.hdr with ipv4 := some h }, md := { p.md with layer34Metadata := l }, rest := rest }
  if h.protocol = 0x11 then parseUdp p
  else if h.protocol = 0x6 then parseTcp p
  else pure p

def parseEthernet (p : Parsed) : Except ParserError Parsed := do
  let (h, rest) ← extract ethernetCodec p.rest
  let p := { p with hdr := { p.hdr with ethernet := some h }, rest := rest }
  if h.etherType = 0x800 then parseIpv4 p else pure p

/-- The target has already filled its timestamps into the metadata. -/
def parserImpl (md : Metadata) (packet : List Byte) : Except ParserError Parsed :=
  parseEthernet ⟨Headers.invalid, md, packet⟩

def deparserImpl (hdr : Headers) (payload : List Byte) : List Byte :=
  emit ethernetCodec hdr.ethernet ++ emit ipv4Codec hdr.ipv4 ++ emit udpCodec hdr.udp ++
    emit tcpCodec hdr.tcp ++ emit intl4ShimCodec hdr.intShim ++ emit intHeaderCodec hdr.intHeader ++
    emit intSwitchIdCodec hdr.intSwitchId ++ emit intPortIdsCodec hdr.intPortIds ++
    emit intHopLatencyCodec hdr.intHopLatency ++ emit intQOccupancyCodec hdr.intQOccupancy ++
    emit intIngressTstampCodec hdr.intIngressTstamp ++ emit intEgressTstampCodec hdr.intEgressTstamp ++
    emit intLevel2PortIdsCodec hdr.intLevel2PortIds ++
    emit intEgressPortTxUtilCodec hdr.intEgressPortTxUtil ++ emit influxCodec hdr.influx ++ payload

inductive Transport
  | udp (h : Udp)
  | tcp (h : Tcp)
deriving DecidableEq, Repr

namespace Transport

def protocol : Transport → BitVec 8
  | udp _ => 0x11
  | tcp _ => 0x6

def encode : Transport → List Byte
  | udp h => udpCodec.encode h
  | tcp h => tcpCodec.encode h

def udp? : Transport → Header Udp
  | udp h => some h
  | tcp _ => none

def tcp? : Transport → Header Tcp
  | udp _ => none
  | tcp h => some h

def srcPort : Transport → BitVec 16
  | udp h => h.srcPort
  | tcp h => h.srcPort

def dstPort : Transport → BitVec 16
  | udp h => h.dstPort
  | tcp h => h.dstPort

end Transport

/-- The parts of a frame with a UDP or TCP header, in transmission order. -/
structure Segments where
  ethernet : Ethernet
  ipv4 : Ipv4
  l4 : Transport
  int : Option (Intl4Shim × IntHeader)
  payload : List Byte
deriving DecidableEq, Repr

def intBytes : Option (Intl4Shim × IntHeader) → List Byte
  | none => []
  | some (s, h) => intl4ShimCodec.encode s ++ intHeaderCodec.encode h

namespace Segments

def frame (s : Segments) : List Byte :=
  ethernetCodec.encode s.ethernet ++ (ipv4Codec.encode s.ipv4 ++
    (s.l4.encode ++ (intBytes s.int ++ s.payload)))

def headers (s : Segments) : Headers :=
  { Headers.invalid with
    ethernet := some s.ethernet
    ipv4 := some s.ipv4
    udp := s.l4.udp?
    tcp := s.l4.tcp?
    intShim := s.int.map Prod.fst
    intHeader := s.int.map Prod.snd }

/-- The conditions under which the parser reaches accept with these parts. -/
structure Accepted (s : Segments) : Prop where
  etherType : s.ethernet.etherType = 0x800
  protocol : s.ipv4.protocol = s.l4.protocol
  marked : s.ipv4.dscp = ipv4DscpInt ↔ s.int.isSome
  supported : ∀ p ∈ s.int, 3#8 ≤ p.1.len ∧ p.2.ver = intVersion

def metadata (s : Segments) (md : Metadata) : Metadata :=
  { md with layer34Metadata := ⟨s.l4.srcPort, s.l4.dstPort, s.ipv4.dscp⟩ }

end Segments

/-- A frame that the parser accepts with a UDP or TCP header. -/
structure Datagram extends Segments where
  accepted : toSegments.Accepted

def sampleDatagram : Datagram where
  ethernet := ⟨0x020000000002, 0x020000000001, 0x0800⟩
  ipv4 := ⟨4, 5, 0, 0, 32, 0, 0, 0, 64, 17, 0x66cb, 0x0a000001, 0x0a000002⟩
  l4 := .udp ⟨5000, 6000, 12, 0⟩
  int := none
  payload := [1, 2, 3, 4]
  accepted := ⟨rfl, rfl, by decide, by simp⟩

/-- A packet with DSCP 10 that another source has marked already. -/
def sampleMarked : Datagram where
  ethernet := ⟨0x020000000002, 0x020000000001, 0x0800⟩
  ipv4 := ⟨4, 5, ipv4DscpInt, 0, 44, 0, 0, 0, 64, 17, 0, 0x0a000001, 0x0a000002⟩
  l4 := .udp ⟨5000, 6000, 24, 0⟩
  int := some (⟨1, 0, 3, 10, 0⟩, ⟨1, 0, 0, 0, 0, 1, 0, 6, 0xff, 0x00cc, 1⟩)
  payload := [1, 2, 3, 4]
  accepted := ⟨rfl, rfl, iff_of_true rfl rfl, by rintro _ ⟨⟩; exact ⟨by decide, rfl⟩⟩

theorem extract_encode {α : Type} (c : Codec α) (a : α) (rest : List Byte) :
    extract c (c.encode a ++ rest) = .ok (a, rest) := by
  simp [extract]

theorem extract_bind {α β : Type} (c : Codec α) (a : α) (rest : List Byte)
    (f : α × List Byte → Except ParserError β) :
    (extract c (c.encode a ++ rest) >>= f) = f (a, rest) := by
  rw [extract_encode]
  rfl

theorem extract_bind_eq_ok {α β : Type} {c : Codec α} {bs : List Byte} {b : β}
    {f : α × List Byte → Except ParserError β} (h : (extract c bs >>= f) = .ok b) :
    ∃ a rest, bs = c.encode a ++ rest ∧ f (a, rest) = .ok b := by
  cases he : extract c bs with
  | error e =>
      rw [he] at h
      cases h
  | ok r =>
      rw [he] at h
      refine ⟨r.1, r.2, ?_, h⟩
      simp only [extract] at he
      split at he
      · cases he
      · next r' hr =>
        cases he
        exact (read_eq_some c bs r.2 r.1).mp hr

theorem parseIntHeader_eq_ok {p q : Parsed} (h : parseIntHeader p = .ok q) :
    ∃ i, i.ver = intVersion ∧ p.rest = intHeaderCodec.encode i ++ q.rest ∧
      q = { p with hdr := { p.hdr with intHeader := some i }, rest := q.rest } := by
  obtain ⟨i, rest, hb, hq⟩ := extract_bind_eq_ok h
  dsimp only at hq
  split at hq
  · next hv =>
    cases hq
    exact ⟨i, hv, hb, rfl⟩
  · cases hq

theorem parseIntShim_eq_ok {p q : Parsed} (h : parseIntShim p = .ok q) :
    ∃ s i, 3#8 ≤ s.len ∧ i.ver = intVersion ∧ p.rest = intBytes (some (s, i)) ++ q.rest ∧
      q = { p with hdr := { p.hdr with intShim := some s, intHeader := some i }, rest := q.rest } := by
  obtain ⟨s, rest, hb, hq⟩ := extract_bind_eq_ok h
  dsimp only at hq
  split at hq
  · next hl =>
    obtain ⟨i, hv, hr, hq⟩ := parseIntHeader_eq_ok hq
    dsimp only at hr hq
    refine ⟨s, i, hl, hv, ?_, hq⟩
    rw [hb, hr, intBytes, List.append_assoc]
  · cases hq

theorem mark_eq_ok {p q : Parsed} {dscp : BitVec 6}
    (h : (if dscp = ipv4DscpInt then parseIntShim p else pure p) = .ok q) :
    ∃ int : Option (Intl4Shim × IntHeader), (dscp = ipv4DscpInt ↔ int.isSome) ∧
      (∀ r ∈ int, 3#8 ≤ r.1.len ∧ r.2.ver = intVersion) ∧ p.rest = intBytes int ++ q.rest ∧
      q = { p with
        hdr := { p.hdr with
          intShim := (int.map Prod.fst).or p.hdr.intShim
          intHeader := (int.map Prod.snd).or p.hdr.intHeader }
        rest := q.rest } := by
  split at h
  · next hd =>
    obtain ⟨s, i, hl, hv, hr, hq⟩ := parseIntShim_eq_ok h
    exact ⟨some (s, i), by simp [hd], by rintro _ ⟨⟩; exact ⟨hl, hv⟩, hr, hq⟩
  · next hd =>
    cases h
    exact ⟨none, by simp [hd], by simp, rfl, rfl⟩

theorem parseIntShim_segments (p : Parsed) (s : Intl4Shim) (i : IntHeader) (rest : List Byte)
    (hl : 3#8 ≤ s.len) (hv : i.ver = intVersion) (hr : p.rest = intBytes (some (s, i)) ++ rest) :
    parseIntShim p =
      .ok { p with hdr := { p.hdr with intShim := some s, intHeader := some i }, rest := rest } := by
  rw [parseIntShim, hr, intBytes, List.append_assoc, extract_bind]
  simp only [hl, ↓reduceIte, parseIntHeader]
  rw [extract_bind]
  simp only [hv, ↓reduceIte]
  rfl

theorem mark_segments (p : Parsed) (dscp : BitVec 6) (int : Option (Intl4Shim × IntHeader))
    (rest : List Byte) (hm : dscp = ipv4DscpInt ↔ int.isSome)
    (hv : ∀ r ∈ int, 3#8 ≤ r.1.len ∧ r.2.ver = intVersion) (hr : p.rest = intBytes int ++ rest) :
    (if dscp = ipv4DscpInt then parseIntShim p else pure p) =
      .ok { p with
        hdr := { p.hdr with
          intShim := (int.map Prod.fst).or p.hdr.intShim
          intHeader := (int.map Prod.snd).or p.hdr.intHeader }
        rest := rest } := by
  cases int with
  | none =>
      have hn : dscp ≠ ipv4DscpInt := by simpa using hm
      rw [if_neg hn]
      dsimp only [intBytes] at hr
      rw [List.nil_append] at hr
      rw [← hr]
      rfl
  | some r =>
      obtain ⟨hl, hver⟩ := hv r rfl
      rw [if_pos (hm.mpr rfl)]
      exact parseIntShim_segments p r.1 r.2 rest hl hver hr

/-- The parser recovers the parts of every frame that was built from them. -/
theorem parserImpl_frame (md : Metadata) (s : Segments) (hs : s.Accepted) :
    parserImpl md s.frame = .ok ⟨s.headers, s.metadata md, s.payload⟩ := by
  obtain ⟨ethernet, ipv4, l4, int, payload⟩ := s
  obtain ⟨ht, hp, hm, hv⟩ := hs
  dsimp only at ht hp hm hv
  rw [parserImpl, parseEthernet, Segments.frame, extract_bind]
  simp only [ht, ↓reduceIte, parseIpv4]
  rw [extract_bind]
  cases l4 with
  | udp h =>
      simp only [hp, Transport.protocol, ↓reduceIte, parseUdp, Transport.encode]
      rw [extract_bind]
      refine (mark_segments _ _ int payload hm hv rfl).trans ?_
      cases int <;> rfl
  | tcp h =>
      have hne : (0x6 : BitVec 8) ≠ 0x11 := by decide
      simp only [hp, Transport.protocol, hne, ↓reduceIte, parseTcp, Transport.encode]
      rw [extract_bind]
      refine (mark_segments _ _ int payload hm hv rfl).trans ?_
      cases int <;> rfl

theorem Transport.eq_of_headers (a b : Transport) (hudp : a.udp? = b.udp?) (htcp : a.tcp? = b.tcp?) :
    a = b := by
  cases a with
  | udp u =>
      cases b with
      | udp u' => rw [Option.some.inj hudp]
      | tcp t => nomatch hudp
  | tcp t =>
      cases b with
      | udp u => nomatch hudp
      | tcp t' => rw [Option.some.inj htcp]

theorem Segments.eq_of_headers (s s' : Segments) (h : s.headers = s'.headers)
    (hpayload : s.payload = s'.payload) : s = s' := by
  obtain ⟨ethernet, ipv4, l4, int, payload⟩ := s
  obtain ⟨ethernet', ipv4', l4', int', payload'⟩ := s'
  have hint : int = int' := by
    cases int with
    | none =>
        cases int' with
        | none => rfl
        | some r => nomatch congrArg Headers.intShim h
    | some r =>
        cases int' with
        | none => nomatch congrArg Headers.intShim h
        | some r' =>
            rw [Prod.ext (Option.some.inj (congrArg Headers.intShim h))
              (Option.some.inj (congrArg Headers.intHeader h))]
  rw [Segments.mk.injEq]
  exact ⟨Option.some.inj (congrArg Headers.ethernet h), Option.some.inj (congrArg Headers.ipv4 h),
    Transport.eq_of_headers l4 l4' (congrArg Headers.udp h) (congrArg Headers.tcp h), hint, hpayload⟩

theorem toSegments_of_frame (d d' : Datagram) (h : d.frame = d'.frame) : d.toSegments = d'.toSegments := by
  have hp := parserImpl_frame default d.toSegments d.accepted
  rw [h, parserImpl_frame default d'.toSegments d'.accepted] at hp
  obtain ⟨hheaders, -, hpayload⟩ := (Parsed.mk.injEq ..).mp (Except.ok.inj hp)
  exact Segments.eq_of_headers _ _ hheaders.symm hpayload.symm

theorem parserImpl_short (md : Metadata) (s : Segments) (shim : Intl4Shim) (header : IntHeader)
    (ht : s.ethernet.etherType = 0x800) (hp : s.ipv4.protocol = s.l4.protocol)
    (hd : s.ipv4.dscp = ipv4DscpInt) (hint : s.int = some (shim, header)) (hl : ¬ 3#8 ≤ shim.len) :
    parserImpl md s.frame = .error .intShimLenTooShort := by
  have hs (p : Parsed) (hr : p.rest = intBytes (some (shim, header)) ++ s.payload) :
      parseIntShim p = .error .intShimLenTooShort := by
    rw [parseIntShim, hr, intBytes, List.append_assoc, extract_bind]
    simp only [hl, ↓reduceIte]
    rfl
  rw [parserImpl, parseEthernet, Segments.frame, extract_bind]
  simp only [ht, ↓reduceIte, parseIpv4]
  rw [extract_bind]
  cases hl4 : s.l4 with
  | udp h =>
      simp only [hp, hl4, Transport.protocol, ↓reduceIte, parseUdp, Transport.encode]
      rw [extract_bind]
      simp only [hd, ↓reduceIte]
      exact hs _ (by rw [hint])
  | tcp h =>
      have hne : (0x6 : BitVec 8) ≠ 0x11 := by decide
      simp only [hp, hl4, Transport.protocol, hne, ↓reduceIte, parseTcp, Transport.encode]
      rw [extract_bind]
      simp only [hd, ↓reduceIte]
      exact hs _ (by rw [hint])

/-- Conversely, an accepted frame either has such parts, or was accepted before
an L4 header and keeps everything behind its last header as payload. -/
theorem parserImpl_cases {md : Metadata} {packet : List Byte} {p : Parsed}
    (h : parserImpl md packet = .ok p) :
    (∃ d : Datagram, packet = d.frame ∧ p = ⟨d.headers, d.metadata md, d.payload⟩) ∨
      ∃ eth ip, p.hdr = { Headers.invalid with ethernet := some eth, ipv4 := ip } ∧
        packet = ethernetCodec.encode eth ++ (emit ipv4Codec ip ++ p.rest) := by
  obtain ⟨eth, r1, hb1, h⟩ := extract_bind_eq_ok h
  dsimp only at hb1 h
  split at h
  case isFalse =>
    cases h
    exact .inr ⟨eth, none, rfl, hb1⟩
  next ht =>
  obtain ⟨ip, r2, hb2, h⟩ := extract_bind_eq_ok h
  dsimp only at hb2 h
  split at h
  · next hp =>
    obtain ⟨udp, r3, hb3, h⟩ := extract_bind_eq_ok h
    obtain ⟨int, hm, hv, hr, hq⟩ := mark_eq_ok h
    dsimp only at hb3 hr hq
    refine .inl ⟨⟨⟨eth, ip, .udp udp, int, p.rest⟩, ht, hp, hm, hv⟩, ?_, ?_⟩
    · simp only [Segments.frame, Transport.encode, hb1, hb2, hb3, hr]
    · rw [hq]
      cases int <;> rfl
  · split at h
    case isFalse =>
      cases h
      exact .inr ⟨eth, some ip, rfl, by rw [hb1, hb2]; rfl⟩
    next hp =>
    obtain ⟨tcp, r3, hb3, h⟩ := extract_bind_eq_ok h
    obtain ⟨int, hm, hv, hr, hq⟩ := mark_eq_ok h
    dsimp only at hb3 hr hq
    refine .inl ⟨⟨⟨eth, ip, .tcp tcp, int, p.rest⟩, ht, hp, hm, hv⟩, ?_, ?_⟩
    · simp only [Segments.frame, Transport.encode, hb1, hb2, hb3, hr]
    · rw [hq]
      cases int <;> rfl

def IsL4 (packet : List Byte) : Prop :=
  ∃ md p, parserImpl md packet = .ok p ∧ (p.hdr.udp.isSome ∨ p.hdr.tcp.isSome)

theorem isL4_iff (packet : List Byte) : IsL4 packet ↔ ∃ d : Datagram, packet = d.frame := by
  constructor
  · rintro ⟨md, p, hp, hl4⟩
    rcases parserImpl_cases hp with ⟨d, hd, _⟩ | ⟨eth, ip, hhdr, _⟩
    · exact ⟨d, hd⟩
    · simp [hhdr, Headers.invalid] at hl4
  · rintro ⟨d, rfl⟩
    refine ⟨default, _, parserImpl_frame default d.toSegments d.accepted, ?_⟩
    obtain ⟨⟨ethernet, ipv4, l4, int, payload⟩, _⟩ := d
    cases l4 with
    | udp h => exact .inl rfl
    | tcp h => exact .inr rfl

end IntPlatform.T4p4s.Parsing
