import IntPlatform.T4p4s.Counters

namespace IntPlatform.T4p4s.SourceLengths

open Library.Formats Library.HeaderValidity HeaderTypes Parsing Controls Effects T4p4s.Path ByteEffect

def totalLen (frame : List Byte) : BitVec 16 := be16.decode ((frame.drop 16).take 2)

def udpLen (frame : List Byte) : BitVec 16 := be16.decode ((frame.drop 38).take 2)

def shimDscp (s : Segments) (frame : List Byte) : BitVec 6 :=
  (frame.getD (l4End s + 3) 0).extractLsb' 2 6

/-- The DSCP of the application packet. In a frame that carries INT already,
the shim keeps it. -/
def originalDscp (s : Segments) : BitVec 6 :=
  match s.int with
  | none => s.ipv4.dscp
  | some (shim, _) => shim.dscp

/-- The output of a source node against a frame with the parts s: the length
fields grow by the bytes added, and the shim tells the original DSCP. -/
structure SourceAccounted (s : Segments) (out : List Byte) : Prop where
  lengths : ∃ n, out.length = s.frame.length + n ∧
    totalLen out = totalLen s.frame + BitVec.ofNat 16 n ∧
    (s.l4.udp?.isSome → udpLen out = udpLen s.frame + BitVec.ofNat 16 n)
  dscp : shimDscp s out = originalDscp s

theorem totalLen_frame (s : Segments) : totalLen s.frame = s.ipv4.totalLen := be16.decode_encode _

theorem udpLen_frame (s : Segments) (u : Udp) (hl4 : s.l4 = .udp u) : udpLen s.frame = u.len := by
  rw [Segments.frame, hl4]
  exact be16.decode_encode _

theorem shimDscp_frame (s : Segments) (shim : Intl4Shim) (header : IntHeader)
    (hint : s.int = some (shim, header)) : shimDscp s s.frame = shim.dscp := by
  have hb : s.frame.getD (l4End s + 3) 0 = shim.dscp ++ shim.rsvd3 := by
    obtain ⟨ethernet, ipv4, l4, int, payload⟩ := s
    dsimp only at hint
    subst hint
    cases l4 <;> rfl
  rw [shimDscp, hb]
  exact BitVec.extractLsb'_append_eq_left

section Frames

variable (s : Segments) (n : BitVec 16) (e : Ethernet) (ip : Ipv4) (shim : Intl4Shim) (header : IntHeader)
  (m : NodeMeta)

def grown : Segments :=
  ⟨e, ip, clearCsum (growUdp n s.l4), some (shim, header), nodeMetaCodec.encode m ++ s.payload⟩

theorem length_grown :
    (grown s n e ip shim header m).frame.length = s.frame.length + 36 - (intBytes s.int).length := by
  have hl : (clearCsum (growUdp n s.l4)).encode.length = s.l4.encode.length := by
    rw [length_clearCsum, length_growUdp]
  have hm : (nodeMetaCodec.encode m).length = 24 := nodeMetaCodec.encode_length m
  have hi : (intBytes (some (shim, header))).length = 12 := rfl
  simp only [grown, Segments.frame, List.length_append, hl, hm, hi, Codec.encode_length]
  omega

theorem shimDscp_grown : shimDscp s (grown s n e ip shim header m).frame = shim.dscp := by
  have hend : l4End s = l4End (grown s n e ip shim header m) := by
    rw [l4End, l4End, grown, length_clearCsum, length_growUdp]
  rw [shimDscp, hend]
  exact shimDscp_frame (grown s n e ip shim header m) shim header rfl

theorem udpLen_grown (hu : s.l4.udp?.isSome) :
    udpLen (grown s n e ip shim header m).frame = udpLen s.frame + n := by
  cases hl4 : s.l4 with
  | udp u =>
      rw [udpLen_frame s u hl4]
      exact udpLen_frame _ { u with len := u.len + n, csum := 0 } (by rw [grown, hl4]; rfl)
  | tcp u => simp [hl4, Transport.udp?] at hu

end Frames

/-- On a frame that carries INT the source control adds no header, but counts
the bytes of both. -/
theorem effect_source_marked (hop : Hop) (s : Segments) (shim : Intl4Shim) (header : IntHeader)
    (hsrc : hop.cfg.srcEnable = true) (hint : s.int = some (shim, header)) :
    ∃ ip shim' header', ip.totalLen = s.ipv4.totalLen + 36 ∧
      hop.effect s = grown s 36 s.ethernet ip shim' header' hop.nodeMeta := by
  obtain ⟨ethernet, ipv4, l4, int, payload⟩ := s
  dsimp only at hint
  subst hint
  have hl : ipv4.totalLen + 36 = ipv4.totalLen + 12 + 24 := by
    rw [BitVec.add_assoc]
    rfl
  have hg : clearCsum (growUdp 36 l4) = growUdp 24 (clearCsum (growUdp 12 l4)) := by
    rw [growUdp_clearCsum]
    rfl
  simp only [Hop.effect, effect, hsrc, ↓reduceIte, grown, hg]
  exact ⟨_, _, _, hl.symm, rfl⟩

section Source

variable (hop : Hop) (d : Datagram) (hsrc : hop.cfg.srcEnable = true) (hk : hop.cfg.sinkEnable = false)

include hsrc hk

theorem accounted_of_unmarked (hint : d.int = none) :
    ∃ out, hop.forward d.frame = some out ∧ SourceAccounted d.toSegments out := by
  refine ⟨_, forward_frame hop d.toSegments d.accepted hk, ?_⟩
  obtain ⟨csum, he⟩ := effect_source hop d.toSegments hsrc hint
  rw [he]
  constructor
  case lengths =>
      refine ⟨36, ?_, ?_, ?_⟩
      · refine (length_grown d.toSegments 36 _ _ _ _ hop.nodeMeta).trans ?_
        rw [hint]
        rfl
      · rw [totalLen_frame, totalLen_frame]
        rfl
      · exact udpLen_grown d.toSegments 36 _ _ _ _ hop.nodeMeta
  case dscp =>
      rw [originalDscp, hint]
      exact shimDscp_grown d.toSegments 36 _ _ _ _ hop.nodeMeta

theorem unmarked_of_accounted
    (ha : ∃ out, hop.forward d.frame = some out ∧ SourceAccounted d.toSegments out) : d.int = none := by
  obtain ⟨out, hout, ha⟩ := ha
  obtain ⟨n, hlen, htotal, -⟩ := ha.lengths
  rw [forward_frame hop d.toSegments d.accepted hk] at hout
  cases hint : d.int with
  | none => rfl
  | some r =>
      obtain ⟨ip, shim, header, hip, he⟩ := effect_source_marked hop d.toSegments r.1 r.2 hsrc hint
      have hb : (intBytes d.int).length = 12 := by
        rw [hint]
        rfl
      rw [← Option.some.inj hout, he, length_grown, hb] at hlen
      rw [← Option.some.inj hout, he, totalLen_frame, totalLen_frame] at htotal
      have hn : n = 24 := by omega
      have h36 : d.ipv4.totalLen + 36#16 = d.ipv4.totalLen + 24#16 := by
        rw [hn] at htotal
        exact hip.symm.trans htotal
      exact absurd ((BitVec.add_right_inj _).mp h36) (show 36#16 ≠ 24#16 by decide)

/-- A source keeps its length fields and the original DSCP right exactly for
the frames that carry no INT headers yet. -/
theorem source_accounted_iff :
    (∃ out, hop.forward d.frame = some out ∧ SourceAccounted d.toSegments out) ↔ d.int = none :=
  ⟨unmarked_of_accounted hop d hsrc hk, accounted_of_unmarked hop d hsrc hk⟩

end Source

theorem source_accounted_sample :
    ∃ out, sampleSource.forward sampleDatagram.frame = some out ∧
      SourceAccounted sampleDatagram.toSegments out :=
  (source_accounted_iff sampleSource sampleDatagram rfl rfl).mpr rfl

theorem marked_not_accounted :
    ¬ ∃ out, sampleSource.forward sampleMarked.frame = some out ∧
      SourceAccounted sampleMarked.toSegments out := by
  intro ha
  exact absurd (unmarked_of_accounted sampleSource sampleMarked rfl rfl ha) (by decide)

end IntPlatform.T4p4s.SourceLengths
