import IntPlatform.T4p4s.Checksum

namespace IntPlatform.T4p4s.ByteEffect

open Library.Formats Library.HeaderValidity Library.OnesComplement
open HeaderTypes Parsing Controls Switch Effects T4p4s.Path Checksum

def l4End (s : Segments) : Nat := 34 + s.l4.encode.length

def patchUdpLen (n : BitVec 16) : Transport → List Byte → List Byte
  | .udp h, frame => patch 38 (be16.encode (h.len + n)) frame
  | .tcp _, frame => frame

def patchCsum (csum : BitVec 16) : Transport → List Byte → List Byte
  | .udp _, frame => patch 40 (be16.encode csum) frame
  | .tcp _, frame => patch 50 (be16.encode csum) frame

/-- The input of a transit node with its two counters and its lengths bumped,
and the metadata inserted behind the INT header. -/
def transitBytes (m : NodeMeta) (csum : BitVec 16) (s : Segments) (shim : Intl4Shim)
    (header : IntHeader) : List Byte :=
  insertAt (l4End s + 12) (nodeMetaCodec.encode m) <|
    patch (l4End s + 7) [header.remainingHopCnt - 1] <|
    patch (l4End s + 2) [shim.len + 6] <|
    patchUdpLen 24 s.l4 <|
    patch 24 (be16.encode csum) <|
    patch 16 (be16.encode (s.ipv4.totalLen + 24)) s.frame

/-- The input of a source node with its DSCP, L4 checksum and lengths replaced,
and the INT headers and metadata inserted behind the L4 header. -/
def sourceBytes (seq : BitVec 16) (m : NodeMeta) (csum : BitVec 16) (s : Segments) : List Byte :=
  insertAt (l4End s)
      (intl4ShimCodec.encode ⟨intTypeHopByHop, 0, 9, s.ipv4.dscp, 0⟩ ++
        (intHeaderCodec.encode ⟨intVersion, 0, 0, 0, 0, 1, 0, 6, 0xfe, 0x00cc, seq⟩ ++
          nodeMetaCodec.encode m)) <|
    patchCsum 0 s.l4 <|
    patchUdpLen 36 s.l4 <|
    patch 24 (be16.encode csum) <|
    patch 16 (be16.encode (s.ipv4.totalLen + 36)) <|
    patch 15 [ipv4DscpInt ++ s.ipv4.ecn] s.frame

section Frames

variable (e : Ethernet) (ip : Ipv4) (l4 : Transport) (int : Option (Intl4Shim × IntHeader))
  (shim : Intl4Shim) (header : IntHeader) (payload : List Byte)

theorem frame_dscp (v : BitVec 6) :
    (⟨e, { ip with dscp := v }, l4, int, payload⟩ : Segments).frame =
      patch 15 [v ++ ip.ecn] (⟨e, ip, l4, int, payload⟩ : Segments).frame := rfl

theorem frame_totalLen (v : BitVec 16) :
    (⟨e, { ip with totalLen := v }, l4, int, payload⟩ : Segments).frame =
      patch 16 (be16.encode v) (⟨e, ip, l4, int, payload⟩ : Segments).frame := rfl

theorem frame_checksum (v : BitVec 16) :
    (⟨e, { ip with checksum := v }, l4, int, payload⟩ : Segments).frame =
      patch 24 (be16.encode v) (⟨e, ip, l4, int, payload⟩ : Segments).frame := rfl

theorem frame_growUdp (n : BitVec 16) :
    (⟨e, ip, growUdp n l4, int, payload⟩ : Segments).frame =
      patchUdpLen n l4 (⟨e, ip, l4, int, payload⟩ : Segments).frame := by
  cases l4 <;> rfl

theorem frame_clearCsum :
    (⟨e, ip, clearCsum l4, int, payload⟩ : Segments).frame =
      patchCsum 0 l4 (⟨e, ip, l4, int, payload⟩ : Segments).frame := by
  cases l4 <;> rfl

theorem frame_shimLen (v : BitVec 8) :
    (⟨e, ip, l4, some ({ shim with len := v }, header), payload⟩ : Segments).frame =
      patch (34 + l4.encode.length + 2) [v]
        (⟨e, ip, l4, some (shim, header), payload⟩ : Segments).frame := by
  cases l4 <;> rfl

theorem frame_remaining (v : BitVec 8) :
    (⟨e, ip, l4, some (shim, { header with remainingHopCnt := v }), payload⟩ : Segments).frame =
      patch (34 + l4.encode.length + 7) [v]
        (⟨e, ip, l4, some (shim, header), payload⟩ : Segments).frame := by
  cases l4 <;> rfl

theorem frame_metadata (new : List Byte) :
    (⟨e, ip, l4, some (shim, header), new ++ payload⟩ : Segments).frame =
      insertAt (34 + l4.encode.length + 12) new
        (⟨e, ip, l4, some (shim, header), payload⟩ : Segments).frame := by
  cases l4 <;> rfl

theorem frame_int (new : List Byte) :
    (⟨e, ip, l4, some (shim, header), new ++ payload⟩ : Segments).frame =
      insertAt (34 + l4.encode.length)
        (intl4ShimCodec.encode shim ++ (intHeaderCodec.encode header ++ new))
        (⟨e, ip, l4, none, payload⟩ : Segments).frame := by
  cases l4 <;> rfl

end Frames

theorem patchCsum_growUdp (csum n : BitVec 16) (l4 : Transport) (frame : List Byte) :
    patchCsum csum (growUdp n l4) frame = patchCsum csum l4 frame := by
  cases l4 <;> rfl

theorem length_growUdp (n : BitVec 16) (l4 : Transport) :
    (growUdp n l4).encode.length = l4.encode.length := by
  cases l4 <;> rfl

theorem length_clearCsum (l4 : Transport) : (clearCsum l4).encode.length = l4.encode.length := by
  cases l4 <;> rfl

theorem growUdp_clearCsum (m n : BitVec 16) (l4 : Transport) :
    growUdp n (clearCsum (growUdp m l4)) = clearCsum (growUdp (m + n) l4) := by
  cases l4 <;> simp [growUdp, clearCsum, BitVec.add_assoc]

theorem effect_transit (hop : Hop) (s : Segments) (shim : Intl4Shim) (header : IntHeader)
    (hsrc : hop.cfg.srcEnable = false) (hint : s.int = some (shim, header)) :
    ∃ csum, hop.effect s =
      ⟨s.ethernet, { s.ipv4 with totalLen := s.ipv4.totalLen + 24, checksum := csum },
        growUdp 24 s.l4, some (transitShim shim, transitHeader header),
        nodeMetaCodec.encode hop.nodeMeta ++ s.payload⟩ := by
  obtain ⟨ethernet, ipv4, l4, int, payload⟩ := s
  dsimp only at hint
  subst hint
  obtain ⟨opened, hopen⟩ := openChecksum_rest ipv4
  obtain ⟨csum, hclose⟩ :=
    closeChecksum_rest { ipv4 with totalLen := ipv4.totalLen + 24, checksum := opened }
  refine ⟨csum, ?_⟩
  rw [Hop.effect, effect_passing _ _ _ _ hsrc, mapIpv4_mk openChecksum, hopen]
  exact congrArg (fun h => Segments.mk ethernet h (growUdp 24 l4)
    (some (transitShim shim, transitHeader header)) (nodeMetaCodec.encode hop.nodeMeta ++ payload)) hclose

theorem transitHeader_source (seq : BitVec 16) :
    transitHeader (sourceHeader seq default) =
      ⟨intVersion, 0, 0, 0, 0, 1, 0, 6, 0xfe, 0x00cc, seq⟩ := by
  have hr : (0xff : BitVec 8) - 1 = 0xfe := by decide
  rw [sourceHeader, transitHeader, hr]
  rfl

theorem effect_source (hop : Hop) (s : Segments) (hsrc : hop.cfg.srcEnable = true)
    (hint : s.int = none) :
    ∃ csum, hop.effect s =
      ⟨s.ethernet, { s.ipv4 with
          dscp := ipv4DscpInt, totalLen := s.ipv4.totalLen + 36, checksum := csum },
        clearCsum (growUdp 36 s.l4),
        some (⟨intTypeHopByHop, 0, 9, s.ipv4.dscp, 0⟩,
          ⟨intVersion, 0, 0, 0, 0, 1, 0, 6, 0xfe, 0x00cc, (nextSeq hop.reg1).1⟩),
        nodeMetaCodec.encode hop.nodeMeta ++ s.payload⟩ := by
  obtain ⟨ethernet, ipv4, l4, int, payload⟩ := s
  dsimp only at hint
  subst hint
  have hl : ipv4.totalLen + 36 = ipv4.totalLen + 12 + 24 := by rw [BitVec.add_assoc]; rfl
  have hg : clearCsum (growUdp 36 l4) = growUdp 24 (clearCsum (growUdp 12 l4)) := by
    rw [growUdp_clearCsum]; rfl
  obtain ⟨opened, hopen⟩ := openChecksum_rest ipv4
  obtain ⟨csum, hclose⟩ := closeChecksum_rest
    { ipv4 with dscp := ipv4DscpInt, totalLen := ipv4.totalLen + 12 + 24, checksum := opened }
  refine ⟨csum, ?_⟩
  rw [Hop.effect, effect_sourcing _ _ _ _ hsrc, mapIpv4_mk openChecksum, hopen]
  dsimp only
  rw [hl, hg, ← transitHeader_source]
  exact congrArg (fun h => Segments.mk ethernet h (growUdp 24 (clearCsum (growUdp 12 l4)))
    (some (transitShim (sourceShim ipv4.dscp default), transitHeader (sourceHeader _ default)))
    (nodeMetaCodec.encode hop.nodeMeta ++ payload)) hclose

theorem frame_transitBytes (m : NodeMeta) (csum : BitVec 16) (s : Segments) (shim : Intl4Shim)
    (header : IntHeader) (hint : s.int = some (shim, header)) :
    (⟨s.ethernet, { s.ipv4 with totalLen := s.ipv4.totalLen + 24, checksum := csum },
      growUdp 24 s.l4, some (transitShim shim, transitHeader header),
      nodeMetaCodec.encode m ++ s.payload⟩ : Segments).frame = transitBytes m csum s shim header := by
  obtain ⟨ethernet, ipv4, l4, int, payload⟩ := s
  dsimp only at hint
  subst hint
  rw [frame_metadata, transitHeader, frame_remaining, transitShim, frame_shimLen, length_growUdp,
    frame_growUdp, frame_checksum _ { ipv4 with totalLen := ipv4.totalLen + 24 }, frame_totalLen]
  rfl

theorem frame_sourceBytes (seq : BitVec 16) (m : NodeMeta) (csum : BitVec 16) (s : Segments)
    (hint : s.int = none) :
    (⟨s.ethernet, { s.ipv4 with
        dscp := ipv4DscpInt, totalLen := s.ipv4.totalLen + 36, checksum := csum },
      clearCsum (growUdp 36 s.l4),
      some (⟨intTypeHopByHop, 0, 9, s.ipv4.dscp, 0⟩,
        ⟨intVersion, 0, 0, 0, 0, 1, 0, 6, 0xfe, 0x00cc, seq⟩),
      nodeMetaCodec.encode m ++ s.payload⟩ : Segments).frame = sourceBytes seq m csum s := by
  obtain ⟨ethernet, ipv4, l4, int, payload⟩ := s
  dsimp only at hint
  subst hint
  rw [frame_int, length_clearCsum, length_growUdp, frame_clearCsum, patchCsum_growUdp, frame_growUdp,
    frame_checksum _ { ipv4 with dscp := ipv4DscpInt, totalLen := ipv4.totalLen + 36 },
    frame_totalLen _ { ipv4 with dscp := ipv4DscpInt }, frame_dscp]
  rfl

theorem accepted_growUdp {s : Segments} (hs : s.Accepted) (n csum : BitVec 16) (shim : Intl4Shim)
    (header : IntHeader) (hlen : 3#8 ≤ shim.len) (hver : header.ver = intVersion)
    (payload : List Byte) (clear : Bool) :
    (⟨s.ethernet, { s.ipv4 with dscp := ipv4DscpInt, totalLen := s.ipv4.totalLen + n, checksum := csum },
      if clear then clearCsum (growUdp n s.l4) else growUdp n s.l4, some (shim, header), payload⟩ :
      Segments).Accepted where
  etherType := hs.etherType
  protocol := by
    have hp := hs.protocol
    cases clear <;> cases h : s.l4 <;> simpa [h, growUdp, clearCsum, Transport.protocol] using hp
  marked := by simp
  supported := by
    rintro _ ⟨⟩
    exact ⟨hlen, hver⟩

def Reparses (frame : List Byte) (shim : Intl4Shim) (header : IntHeader) : Prop :=
  ∀ md, ∃ p, parserImpl md frame = .ok p ∧ p.hdr.intShim = some shim ∧ p.hdr.intHeader = some header

theorem reparses_frame (s : Segments) (hs : s.Accepted) (shim : Intl4Shim) (header : IntHeader)
    (hint : s.int = some (shim, header)) : Reparses s.frame shim header := by
  intro md
  refine ⟨_, parserImpl_frame md s hs, ?_, ?_⟩ <;> simp [Segments.headers, hint]

/-- The exact effect of a source or transit node on the bytes of a frame. -/
theorem node_byte_effect (frame : List Byte) (hl4 : IsL4 frame) (hop : Hop)
    (hk : hop.cfg.sinkEnable = false) :
    ∃ d : Datagram, frame = d.frame ∧
      (∀ shim header, d.int = some (shim, header) → hop.cfg.srcEnable = false →
        ∃ csum out, out = transitBytes hop.nodeMeta csum d.toSegments shim header ∧
          hop.forward frame = some out ∧ total (ipv4Bytes out) = total (ipv4Bytes frame) ∧
          (3#8 ≤ shim.len + 6 → Reparses out (transitShim shim) (transitHeader header))) ∧
      (d.int = none → hop.cfg.srcEnable = true →
        ∃ csum out, out = sourceBytes (nextSeq hop.reg1).1 hop.nodeMeta csum d.toSegments ∧
          hop.forward frame = some out ∧ total (ipv4Bytes out) = total (ipv4Bytes frame) ∧
          Reparses out ⟨intTypeHopByHop, 0, 9, d.ipv4.dscp, 0⟩
            ⟨intVersion, 0, 0, 0, 0, 1, 0, 6, 0xfe, 0x00cc, (nextSeq hop.reg1).1⟩) := by
  obtain ⟨d, rfl⟩ := (isL4_iff frame).mp hl4
  have hf := forward_frame hop d.toSegments d.accepted hk
  have ht : total (ipv4Bytes (hop.effect d.toSegments).frame) = total (ipv4Bytes d.frame) := by
    rw [ipv4Bytes_frame, ipv4Bytes_frame, total_effect]
  refine ⟨d, rfl, ?_, ?_⟩
  · intro shim header hint hsrc
    obtain ⟨csum, he⟩ := effect_transit hop d.toSegments shim header hsrc hint
    have hd : d.ipv4.dscp = ipv4DscpInt := d.accepted.marked.mpr (by simp [hint])
    have hver := (d.accepted.supported _ hint).2
    rw [he] at hf ht
    refine ⟨csum, _, frame_transitBytes _ csum _ shim header hint ▸ rfl, hf, ht, ?_⟩
    intro hlen
    have ha := accepted_growUdp d.accepted 24 csum (transitShim shim) (transitHeader header) hlen hver
      (nodeMetaCodec.encode hop.nodeMeta ++ d.payload) false
    rw [← hd] at ha
    exact reparses_frame _ ha _ _ rfl
  · intro hint hsrc
    obtain ⟨csum, he⟩ := effect_source hop d.toSegments hsrc hint
    rw [he] at hf ht
    refine ⟨csum, _, frame_sourceBytes _ _ csum _ hint ▸ rfl, hf, ht, ?_⟩
    exact reparses_frame _ (accepted_growUdp d.accepted 36 csum _ _ (show 3#8 ≤ 9#8 by decide) rfl
      (nodeMetaCodec.encode hop.nodeMeta ++ d.payload) true) _ _ rfl

theorem node_byte_effect_sample :
    (∃ csum, sampleSource.forward sampleDatagram.frame =
      some (sourceBytes 1 sampleSource.nodeMeta csum sampleDatagram.toSegments)) ∧
    ∃ csum, sampleTransit.forward sampleMarked.frame =
      some (transitBytes sampleTransit.nodeMeta csum sampleMarked.toSegments ⟨1, 0, 3, 10, 0⟩
        ⟨1, 0, 0, 0, 0, 1, 0, 6, 0xff, 0x00cc, 1⟩) := by
  constructor
  · obtain ⟨d, hd, -, hsource⟩ := node_byte_effect sampleDatagram.frame
      ((isL4_iff _).mpr ⟨sampleDatagram, rfl⟩) sampleSource rfl
    have hs := toSegments_of_frame sampleDatagram d hd
    obtain ⟨csum, out, ho, hf, -⟩ := hsource (hs ▸ rfl) rfl
    rw [← hs] at ho
    exact ⟨csum, hf.trans (congrArg some ho)⟩
  · obtain ⟨d, hd, htransit, -⟩ := node_byte_effect sampleMarked.frame
      ((isL4_iff _).mpr ⟨sampleMarked, rfl⟩) sampleTransit rfl
    have hs := toSegments_of_frame sampleMarked d hd
    obtain ⟨csum, out, ho, hf, -⟩ := htransit ⟨1, 0, 3, 10, 0⟩
      ⟨1, 0, 0, 0, 0, 1, 0, 6, 0xff, 0x00cc, 1⟩ (hs ▸ rfl) rfl
    rw [← hs] at ho
    exact ⟨csum, hf.trans (congrArg some ho)⟩

end IntPlatform.T4p4s.ByteEffect
