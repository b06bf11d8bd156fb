import IntPlatform.P4c.Effects

namespace IntPlatform.P4c.OtherTraffic

open Library.Formats Library.HeaderValidity Library.OnesComplement Library.ChecksumUnit
open HeaderTypes Parsing Ingress Deparser Effects

/-- The headers of a frame that was accepted before an L4 header. -/
def plainHeaders (eth : Ethernet) (ip : Header Ipv4) : Headers :=
  { Headers.invalid with ethernet := some eth, ipv4 := ip }

/-- With ck_helper invalid the total length is added, but nothing is taken out
for it. -/
theorem ipv4Checksum_plain (source : Bool) (eth : Ethernet) (ip : Ipv4) :
    ipv4Checksum source (plainHeaders eth (some ip)) =
      ~~~ add (add (~~~ip.hdrChecksum) 0xffff#16) ip.totalLen := by
  have hz : ~~~(0#16) = 0xffff#16 := rfl
  have hclear : add 0#16 (~~~ip.hdrChecksum) = ~~~ip.hdrChecksum := zero_add_word _
  have hne : add (~~~ip.hdrChecksum) 0xffff#16 ≠ 0#16 := by
    rw [Ne, add_eq_zero]
    exact fun h => absurd h.2 (by decide)
  have hones : add (add (~~~ip.hdrChecksum) 0xffff#16) 0xffff#16 = add (~~~ip.hdrChecksum) 0xffff#16 :=
    (add_eq_left _ _ hne).mpr (.inr rfl)
  have hzero : add (add (~~~ip.hdrChecksum) 0xffff#16) 0#16 = add (~~~ip.hdrChecksum) 0xffff#16 :=
    (add_eq_left _ _ hne).mpr (.inl rfl)
  have hck : read (plainHeaders eth (some ip)).ckHelper = default := rfl
  have hip : read (plainHeaders eth (some ip)).ipv4 = ip := rfl
  have hlen : (default : CkHelper).oldTotalLen = 0#16 := rfl
  have hold : (default : CkHelper).oldDscp = 0#16 := rfl
  have hdscp : (default : CkHelper).ipv4Dscp = 0#16 := rfl
  have hstart : InternetChecksum.clear.sum = 0#16 := rfl
  rw [ipv4Checksum, hck, hip, hlen, hold, hdscp]
  simp only [field_be16, InternetChecksum.subtract_singleton, InternetChecksum.add_singleton, hstart,
    InternetChecksum.get, hclear, hz]
  cases source with
  | false => simp only [Bool.false_eq_true, ↓reduceIte]
  | true => simp only [↓reduceIte, hones, hzero]

theorem ipv4Checksum_kept (source : Bool) (eth : Ethernet) (ip : Ipv4) :
    ipv4Checksum source (plainHeaders eth (some ip)) = ip.hdrChecksum ↔
      ip.hdrChecksum ≠ 0xffff#16 ∧ (ip.totalLen = 0#16 ∨ ip.totalLen = 0xffff#16) := by
  rw [ipv4Checksum_plain]
  by_cases hc : ip.hdrChecksum = 0xffff#16
  · refine iff_of_false ?_ fun h => h.1 hc
    intro h
    rw [hc] at h
    have hz : add (add (~~~(0xffff#16)) 0xffff#16) ip.totalLen = 0#16 := BitVec.not_inj.mp h
    exact absurd ((add_eq_zero _ _).mp hz).1 (by decide)
  · have hne : ~~~ip.hdrChecksum ≠ 0#16 := by
      intro h
      exact hc (BitVec.not_inj.mp h)
    rw [(add_eq_left _ _ hne).mpr (.inr rfl)]
    have hnot : ~~~ add (~~~ip.hdrChecksum) ip.totalLen = ip.hdrChecksum ↔
        add (~~~ip.hdrChecksum) ip.totalLen = ~~~ip.hdrChecksum := by
      rw [← BitVec.not_inj, BitVec.not_not]
    rw [hnot, add_eq_left _ _ hne, and_iff_right hc]

section Pipeline

variable (hop : Hop) (packet : List Byte) (r : Parsed) (hr : myIngressParser packet = some r)

include hr

theorem forward_plain (eth : Ethernet) (ip : Header Ipv4) (hhdr : r.hdr = plainHeaders eth ip) :
    hop.forward packet = some (ethernetCodec.encode eth ++
      (emit ipv4Codec (write ip fun h =>
        { h with hdrChecksum := ipv4Checksum hop.program.source (plainHeaders eth ip) }) ++ r.rest)) := by
  obtain ⟨hdr, metadata, rest⟩ := r
  dsimp only at hhdr
  subst hhdr
  have hi : myIngress hop.program hop.tables hop.arrival.istd
      ⟨plainHeaders eth ip, metadata, hop.arrival.egressPort, hop.reportSeqNum⟩ =
        ⟨plainHeaders eth ip, metadata, hop.arrival.egressPort, hop.reportSeqNum⟩ := rfl
  have hnode : emitNode NodeMetadata.invalid = [] := rfl
  rw [Hop.forward, ingressPipeline, hr]
  change some (myIngressDeparser _ _ _) = _
  rw [hi]
  cases ip <;> simp [myIngressDeparser, emitOriginal, hnode, udpChecksum, plainHeaders, Headers.invalid]

/-- The parser accepts without an L4 header only in front of one. -/
theorem plainHeaders_of_accepted (hudp : r.hdr.udp = none) (htcp : r.hdr.tcp = none) :
    ∃ eth ip, r.hdr = plainHeaders eth ip ∧
      packet = ethernetCodec.encode eth ++ (emit ipv4Codec ip ++ r.rest) := by
  rcases myIngressParser_cases hr with ⟨d, -, hhdr, -⟩ | h
  · rw [hhdr] at hudp htcp
    cases hl4 : d.l4 with
    | udp u =>
        rw [Segments.headers, hl4] at hudp
        cases hudp
    | tcp u =>
        rw [Segments.headers, hl4] at htcp
        cases htcp
  · exact h

theorem forward_ipv4_iff (eth : Ethernet) (ip : Ipv4) (hhdr : r.hdr = plainHeaders eth (some ip))
    (hpacket : packet = ethernetCodec.encode eth ++ (ipv4Codec.encode ip ++ r.rest)) :
    hop.forward packet = some packet ↔
      ip.hdrChecksum ≠ 0xffff#16 ∧ (ip.totalLen = 0#16 ∨ ip.totalLen = 0xffff#16) := by
  have hinj : { ip with
      hdrChecksum := ipv4Checksum hop.program.source (plainHeaders eth (some ip)) } = ip ↔
        ipv4Checksum hop.program.source (plainHeaders eth (some ip)) = ip.hdrChecksum :=
    ⟨fun h => congrArg Ipv4.hdrChecksum h, fun h => by rw [h]⟩
  rw [forward_plain hop packet r hr eth (some ip) hhdr, Option.some_inj]
  conv_lhs => rw [hpacket]
  rw [List.append_right_inj, List.append_left_inj, write_some, emit_some, Codec.encode_inj, hinj,
    ipv4Checksum_kept]

/-- Without an L4 header a frame passes unharmed exactly when it is not IPv4 or
its total length is one of the two zeros, in which case the checksum must not
be the other zero. -/
theorem unharmed_iff (hudp : r.hdr.udp = none) (htcp : r.hdr.tcp = none) :
    hop.forward packet = some packet ↔
      ∀ ip, r.hdr.ipv4 = some ip →
        ip.hdrChecksum ≠ 0xffff#16 ∧ (ip.totalLen = 0#16 ∨ ip.totalLen = 0xffff#16) := by
  obtain ⟨eth, ip, hhdr, hpacket⟩ := plainHeaders_of_accepted packet r hr hudp htcp
  rw [hhdr]
  cases ip with
  | none =>
      have hf := forward_plain hop packet r hr eth none hhdr
      rw [write_none, ← hpacket] at hf
      refine iff_of_true hf ?_
      rintro ip ⟨⟩
  | some ip =>
      rw [forward_ipv4_iff hop packet r hr eth ip hhdr hpacket]
      constructor
      · rintro h _ ⟨⟩
        exact h
      · intro h
        exact h ip rfl

end Pipeline

def sampleEcho : List Byte :=
  ethernetCodec.encode ⟨0x020000000002, 0x020000000001, 0x0800⟩ ++
    (ipv4Codec.encode ⟨0x45, 0, 28, 0, 0, 64, 1, 0x66df, 0x0a000001, 0x0a000002⟩ ++
      [8, 0, 0xf7, 0xff, 0, 0, 0, 0])

def sampleArp : List Byte :=
  ethernetCodec.encode ⟨0xffffffffffff, 0x020000000001, 0x0806⟩ ++ List.replicate 46 0

theorem unharmed_sample : (sampleHop true .defaultConf).forward sampleArp = some sampleArp :=
  (unharmed_iff (sampleHop true .defaultConf) sampleArp _ rfl rfl rfl).mpr (by rintro ip ⟨⟩)

theorem echo_harmed : (sampleHop false .defaultConf).forward sampleEcho ≠ some sampleEcho := by
  rw [Ne, forward_ipv4_iff (sampleHop false .defaultConf) sampleEcho _ rfl _ _ rfl rfl]
  decide

end IntPlatform.P4c.OtherTraffic
