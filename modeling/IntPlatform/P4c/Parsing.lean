import IntPlatform.P4c.HeaderTypes

namespace IntPlatform.P4c.Parsing

open Library.Formats Library.HeaderValidity HeaderTypes

structure Parsed where
  hdr : Headers
  metadata : Metadata
  rest : List Byte
deriving DecidableEq, Repr

/-- None stands for the parser error of a packet that is too short. -/
def parseIntHeader (p : Parsed) : Option Parsed := do
  let (h, rest) ← transitIntHeaderCodec.read p.rest
  pure { p with hdr := { p.hdr with transitIntHeader := some h }, rest := rest }

def parseIntShim (p : Parsed) : Option Parsed := do
  let (h, rest) ← intl4ShimCodec.read p.rest
  parseIntHeader { p with hdr := { p.hdr with intShim := some h }, rest := rest }

def parseTcp (p : Parsed) : Option Parsed := do
  let (h, rest) ← tcpCodec.read p.rest
  let m := { p.metadata with l4Src := h.srcPort, l4Dst := h.dstPort, dscp := p.metadata.dscp &&& dscpMask }
  let p := { hdr := { p.hdr with tcp := some h }, metadata := m, rest := rest }
  if m.dscp = 0x20 then parseIntShim p else pure p

def parseUdp (p : Parsed) : Option Parsed := do
  let (h, rest) ← udpCodec.read p.rest
  let m := { p.metadata with l4Src := h.srcPort, l4Dst := h.dstPort, dscp := p.metadata.dscp &&& dscpMask }
  let p := { hdr := { p.hdr with udp := some h }, metadata := m, rest := rest }
  if m.dscp = 0x20 then parseIntShim p else pure p

def parseIpv4 (p : Parsed) : Option Parsed := do
  let (h, rest) ← ipv4Codec.read p.rest
  let m := { p.metadata with dscp := h.dscp }
  let p := { hdr := { p.hdr with ipv4 := some h }, metadata := m, rest := rest }
  if h.protocol = 0x11 then parseUdp p
  else if h.protocol = 0x6 then parseTcp p
  else pure p

def parseEthernet (p : Parsed) : Option Parsed := do
  let (h, rest) ← ethernetCodec.read p.rest
  let p := { p with hdr := { p.hdr with ethernet := some h }, rest := rest }
  if h.etherType = 0x800 then parseIpv4 p else pure p

def myIngressParser (packet : List Byte) : Option Parsed :=
  parseEthernet ⟨Headers.invalid, default, packet⟩

inductive Transport
  | udp (h : Udp)
  | tcp (h : Tcp)
deriving DecidableEq, Repr

namespace Transport

def protocol : Transport → BitVec 8
  | udp _ => 0x11
  | tcp _ => 0x6

def encode : Transport → List Byte
  | udp h => udpCodec.encode h
  | tcp h => tcpCodec.encode h

def udp? : Transport → Header Udp
  | udp h => some h
  | tcp _ => none

def tcp? : Transport → Header Tcp
  | udp _ => none
  | tcp h => some h

def srcPort : Transport → BitVec 16
  | udp h => h.srcPort
  | tcp h => h.srcPort

def dstPort : Transport → BitVec 16
  | udp h => h.dstPort
  | tcp h => h.dstPort

end Transport

/-- The TOS byte marks a frame that carries INT. -/
def Marked (tos : BitVec 8) : Prop := tos &&& dscpMask = 0x20

instance (tos : BitVec 8) : Decidable (Marked tos) := inferInstanceAs (Decidable (_ = _))

/-- The parts of a frame with a UDP or TCP header, in transmission order. -/
structure Segments where
  ethernet : Ethernet
  ipv4 : Ipv4
  l4 : Transport
  int : Option (Intl4Shim × TransitIntHeader)
  payload : List Byte
deriving DecidableEq, Repr

def intBytes : Option (Intl4Shim × TransitIntHeader) → List Byte
  | none => []
  | some (s, h) => intl4ShimCodec.encode s ++ transitIntHeaderCodec.encode h

namespace Segments

def frame (s : Segments) : List Byte :=
  ethernetCodec.encode s.ethernet ++ (ipv4Codec.encode s.ipv4 ++
    (s.l4.encode ++ (intBytes s.int ++ s.payload)))

def headers (s : Segments) : Headers :=
  { Headers.invalid with
    ethernet := some s.ethernet
    ipv4 := some s.ipv4
    udp := s.l4.udp?
    tcp := s.l4.tcp?
    intShim := s.int.map Prod.fst
    transitIntHeader := s.int.map Prod.snd }

/-- The conditions under which the parser reaches accept with these parts. -/
structure Accepted (s : Segments) : Prop where
  etherType : s.ethernet.etherType = 0x800
  protocol : s.ipv4.protocol = s.l4.protocol
  marked : Marked s.ipv4.dscp ↔ s.int.isSome

def metadata (s : Segments) : Metadata :=
  { (default : Metadata) with
    dscp := s.ipv4.dscp &&& dscpMask
    l4Src := s.l4.srcPort
    l4Dst := s.l4.dstPort }

end Segments

/-- A frame that the parser accepts with a UDP or TCP header. -/
structure Datagram extends Segments where
  accepted : toSegments.Accepted

theorem Datagram.protocol_ne_zero (d : Datagram) (u : Udp) (hl4 : d.l4 = .udp u) :
    d.ipv4.protocol ≠ 0 := by
  rw [d.accepted.protocol, hl4, Transport.protocol]
  decide

def sampleDatagram : Datagram where
  ethernet := ⟨0x020000000002, 0x020000000001, 0x0800⟩
  ipv4 := ⟨0x45, 0, 32, 0, 0, 64, 17, 0x66cb, 0x0a000001, 0x0a000002⟩
  l4 := .udp ⟨5000, 6000, 12, 0xbcd5⟩
  int := none
  payload := [1, 2, 3, 4]
  accepted := ⟨rfl, rfl, by decide⟩

def sampleCarrying (header : TransitIntHeader) (csum : BitVec 16) : Datagram where
  ethernet := ⟨0x020000000002, 0x020000000001, 0x0800⟩
  ipv4 := ⟨0x45, 0x20, 52, 0, 0, 64, 17, 0x6697, 0x0a000001, 0x0a000002⟩
  l4 := .udp ⟨5000, 6000, 32, csum⟩
  int := some (⟨1, 0, 5, 0, 0, 0⟩, header)
  payload := [1, 2, 3, 4]
  accepted := ⟨rfl, rfl, iff_of_true (show 0x20 &&& dscpMask = 0x20 from rfl) rfl⟩

theorem mark_eq_some {p q : Parsed} {tos : BitVec 8}
    (h : (if tos &&& dscpMask = 0x20 then parseIntShim p else pure p) = some q) :
    ∃ int : Option (Intl4Shim × TransitIntHeader), (Marked tos ↔ int.isSome) ∧
      p.rest = intBytes int ++ q.rest ∧
      q = { p with
        hdr := { p.hdr with
          intShim := (int.map Prod.fst).or p.hdr.intShim
          transitIntHeader := (int.map Prod.snd).or p.hdr.transitIntHeader }
        rest := q.rest } := by
  split at h
  · next hm =>
    obtain ⟨s, r1, hb1, h⟩ := read_bind_eq_some h
    obtain ⟨i, r2, hb2, h⟩ := read_bind_eq_some h
    dsimp only at hb2
    cases h
    refine ⟨some (s, i), iff_of_true hm rfl, ?_, rfl⟩
    rw [hb1, hb2, intBytes, List.append_assoc]
  · next hm =>
    cases h
    exact ⟨none, iff_of_false hm Bool.false_ne_true, rfl, rfl⟩

theorem parseIntShim_segments (p : Parsed) (s : Intl4Shim) (i : TransitIntHeader) (rest : List Byte)
    (hr : p.rest = intBytes (some (s, i)) ++ rest) :
    parseIntShim p =
      some { p with hdr := { p.hdr with intShim := some s, transitIntHeader := some i }, rest := rest } := by
  rw [parseIntShim, hr, intBytes, List.append_assoc, read_bind]
  dsimp only [parseIntHeader]
  rw [read_bind]
  rfl

theorem mark_segments (p : Parsed) (tos : BitVec 8) (int : Option (Intl4Shim × TransitIntHeader))
    (rest : List Byte) (hm : Marked tos ↔ int.isSome) (hr : p.rest = intBytes int ++ rest) :
    (if tos &&& dscpMask = 0x20 then parseIntShim p else pure p) =
      some { p with
        hdr := { p.hdr with
          intShim := (int.map Prod.fst).or p.hdr.intShim
          transitIntHeader := (int.map Prod.snd).or p.hdr.transitIntHeader }
        rest := rest } := by
  rw [Marked] at hm
  cases int with
  | none =>
      have hn : ¬ tos &&& dscpMask = 0x20 := by simpa using hm
      rw [if_neg hn]
      dsimp only [intBytes] at hr
      rw [List.nil_append] at hr
      rw [← hr]
      rfl
  | some r =>
      rw [if_pos (hm.mpr rfl)]
      exact parseIntShim_segments p r.1 r.2 rest hr

/-- The parser recovers the parts of every frame that was built from them. -/
theorem myIngressParser_frame (s : Segments) (hs : s.Accepted) :
    myIngressParser s.frame = some ⟨s.headers, s.metadata, s.payload⟩ := by
  obtain ⟨ethernet, ipv4, l4, int, payload⟩ := s
  obtain ⟨ht, hp, hm⟩ := hs
  dsimp only at ht hp hm
  rw [myIngressParser, parseEthernet, Segments.frame, read_bind]
  simp only [ht, ↓reduceIte, parseIpv4]
  rw [read_bind]
  cases l4 with
  | udp h =>
      simp only [hp, Transport.protocol, ↓reduceIte, parseUdp, Transport.encode]
      rw [read_bind]
      refine (mark_segments _ _ int payload hm rfl).trans ?_
      cases int <;> rfl
  | tcp h =>
      have hne : (0x6 : BitVec 8) ≠ 0x11 := by decide
      simp only [hp, Transport.protocol, hne, ↓reduceIte, parseTcp, Transport.encode]
      rw [read_bind]
      refine (mark_segments _ _ int payload hm rfl).trans ?_
      cases int <;> rfl

/-- Conversely, an accepted frame either has such parts, or was accepted before
an L4 header and keeps everything behind its last header as payload. -/
theorem myIngressParser_cases {packet : List Byte} {p : Parsed} (h : myIngressParser packet = some p) :
    (∃ d : Datagram, packet = d.frame ∧ p.hdr = d.headers ∧ p.rest = d.payload) ∨
      ∃ eth ip, p.hdr = { Headers.invalid with ethernet := some eth, ipv4 := ip } ∧
        packet = ethernetCodec.encode eth ++ (emit ipv4Codec ip ++ p.rest) := by
  obtain ⟨eth, r1, hb1, h⟩ := read_bind_eq_some h
  dsimp only at hb1 h
  split at h
  case isFalse =>
    cases h
    exact .inr ⟨eth, none, rfl, hb1⟩
  next ht =>
  obtain ⟨ip, r2, hb2, h⟩ := read_bind_eq_some h
  dsimp only at hb2 h
  split at h
  · next hp =>
    obtain ⟨udp, r3, hb3, h⟩ := read_bind_eq_some h
    obtain ⟨int, hm, hr, hq⟩ := mark_eq_some h
    dsimp only at hb3 hr hq
    refine .inl ⟨⟨⟨eth, ip, .udp udp, int, p.rest⟩, ht, hp, hm⟩, ?_, ?_, rfl⟩
    · simp only [Segments.frame, Transport.encode, hb1, hb2, hb3, hr]
    · rw [hq]
      cases int <;> rfl
  · split at h
    case isFalse =>
      cases h
      exact .inr ⟨eth, some ip, rfl, by rw [hb1, hb2]; rfl⟩
    next hp =>
    obtain ⟨tcp, r3, hb3, h⟩ := read_bind_eq_some h
    obtain ⟨int, hm, hr, hq⟩ := mark_eq_some h
    dsimp only at hb3 hr hq
    refine .inl ⟨⟨⟨eth, ip, .tcp tcp, int, p.rest⟩, ht, hp, hm⟩, ?_, ?_, rfl⟩
    · simp only [Segments.frame, Transport.encode, hb1, hb2, hb3, hr]
    · rw [hq]
      cases int <;> rfl

end IntPlatform.P4c.Parsing
