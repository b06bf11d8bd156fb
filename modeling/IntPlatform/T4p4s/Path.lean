import IntPlatform.T4p4s.Effects

namespace IntPlatform.T4p4s.Path

open Library.Formats Library.HeaderValidity HeaderTypes Parsing Controls Switch Effects

/-- One node on a path: its program constants, the content of its register,
and what its target supplies when the packet passes. -/
structure Hop where
  cfg : Config
  reg1 : Register
  arrival : Arrival
deriving DecidableEq, Repr

def Hop.forward (hop : Hop) (frame : List Byte) : Option (List Byte) :=
  match v1Switch hop.cfg hop.reg1 hop.arrival frame with
  | .error _ => none
  | .ok out => out.frame

def Hop.effect (hop : Hop) (s : Segments) : Segments := Effects.effect hop.cfg hop.reg1 hop.arrival s

def Hop.nodeMeta (hop : Hop) : NodeMeta := Effects.nodeMeta hop.cfg hop.arrival

def runPath : List Hop → List Byte → Option (List Byte)
  | [], frame => some frame
  | hop :: hops, frame => (hop.forward frame).bind (runPath hops)

def sampleArrival (ingress egress : BitVec 32) : Arrival :=
  ⟨1, 2, ⟨0, ingress, 0, 0, default⟩, 0, egress⟩

def sampleSource : Hop := ⟨⟨true, false, 1⟩, ⟨false, 0⟩, sampleArrival 100 110⟩
def sampleTransit : Hop := ⟨⟨false, false, 2⟩, ⟨false, 0⟩, sampleArrival 120 130⟩

theorem forward_frame (hop : Hop) (s : Segments) (hs : s.Accepted) (hk : hop.cfg.sinkEnable = false) :
    hop.forward s.frame = some (hop.effect s).frame := by
  rw [Hop.forward, v1Switch_frame hop.cfg hop.reg1 hop.arrival s hs hk]
  rfl

theorem forward_other (hop : Hop) (p : Parsed) (frame : List Byte)
    (hp : parserImpl hop.arrival.md frame = .ok p) (eth : Ethernet) (ip : Header Ipv4)
    (hhdr : p.hdr = { Headers.invalid with ethernet := some eth, ipv4 := ip })
    (hframe : frame = ethernetCodec.encode eth ++ (emit ipv4Codec ip ++ p.rest)) :
    hop.forward frame = some frame := by
  obtain ⟨hdr, md, rest⟩ := p
  dsimp only at hhdr hframe
  subst hhdr
  have hd (u : Metadata) : deparserImpl (egress u { Headers.invalid with
      ethernet := some eth, ipv4 := ip }) rest = frame := by
    rw [hframe]
    cases ip <;> simp [deparserImpl, egress, Headers.invalid]
  have hi : ingress hop.cfg md ⟨{ Headers.invalid with ethernet := some eth, ipv4 := ip },
      hop.arrival.std, hop.reg1⟩ = ⟨{ Headers.invalid with ethernet := some eth, ipv4 := ip },
      hop.arrival.std, hop.reg1⟩ := rfl
  have hv : v1Switch hop.cfg hop.reg1 hop.arrival frame = .ok ⟨some frame, hop.reg1⟩ := by
    rw [v1Switch, hp]
    change Except.ok _ = _
    rw [hi, hd]
    rfl
  rw [Hop.forward, hv]

/-- A node that forwards a frame has either an L4 frame in hand, which it
rewrites, or leaves the frame alone. -/
theorem forward_cases (hop : Hop) (frame out : List Byte) (hk : hop.cfg.sinkEnable = false)
    (h : hop.forward frame = some out) :
    (∃ d : Datagram, frame = d.frame ∧ out = (hop.effect d.toSegments).frame) ∨ out = frame := by
  cases hp : parserImpl hop.arrival.md frame with
  | error e =>
      rw [Hop.forward, v1Switch, hp] at h
      cases h
  | ok p =>
      rcases parserImpl_cases hp with ⟨d, hd, _⟩ | ⟨eth, ip, hhdr, hframe⟩
      · have hf := forward_frame hop d.toSegments d.accepted hk
        rw [← hd, h] at hf
        exact .inl ⟨d, hd, Option.some.inj hf⟩
      · rw [forward_other hop p frame hp eth ip hhdr hframe] at h
        exact .inr (Option.some.inj h).symm

end IntPlatform.T4p4s.Path
