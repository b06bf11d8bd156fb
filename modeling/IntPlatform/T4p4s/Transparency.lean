import IntPlatform.T4p4s.Checksum

namespace IntPlatform.T4p4s.Transparency

open Library.Formats Library.HeaderValidity Library.OnesComplement
open HeaderTypes Parsing Controls Switch Effects T4p4s.Path Checksum

/-- The IPv4 header has the checksum 0xffff, and the words that are taken out of
it and put back are not both zero. -/
structure OtherZero (h : Ipv4) : Prop where
  checksum : h.checksum = 0xffff
  covered : h.totalLen ≠ 0 ∨ firstWord h ≠ 0

instance (h : Ipv4) : Decidable (OtherZero h) :=
  decidable_of_iff (h.checksum = 0xffff ∧ (h.totalLen ≠ 0 ∨ firstWord h ≠ 0))
    ⟨fun ⟨hc, hw⟩ => ⟨hc, hw⟩, fun ⟨hc, hw⟩ => ⟨hc, hw⟩⟩

/-- The checksum of other traffic is not updated at all. -/
def Altered (hdr : Headers) : Prop :=
  (hdr.udp.isSome ∨ hdr.tcp.isSome) ∧ ∃ h ∈ hdr.ipv4, OtherZero h

section Zeros

variable (value : BitVec 16) (h : Ipv4)

theorem ipChecksumAdd_ones :
    (ipChecksumAdd value h).checksum = 0xffff ↔ h.checksum = 0xffff ∧ value = 0 := by
  simp only [ipChecksumAdd]
  split
  · bv_omega
  · bv_omega

theorem ipChecksumSub_zero : ipChecksumSub 0 h = h := by
  have hlt : ¬ ~~~h.checksum < 0 := by bv_omega
  have hsub : ~~~h.checksum - 0 = ~~~h.checksum := BitVec.sub_zero _
  rw [ipChecksumSub, if_neg hlt, hsub, BitVec.not_not]

theorem closeChecksum_openChecksum_rest :
    ∃ checksum, closeChecksum (openChecksum h) = { h with checksum := checksum } := by
  obtain ⟨opened, hopen⟩ := openChecksum_rest h
  rw [hopen]
  exact closeChecksum_rest _

theorem closeChecksum_openChecksum_residue :
    residue (closeChecksum (openChecksum h)).checksum = residue h.checksum := by
  have htotal := (closeChecksum_residue (openChecksum h)).trans (openChecksum_residue h)
  obtain ⟨checksum, hrest⟩ := closeChecksum_openChecksum_rest h
  have hsame : firstWord { h with checksum := checksum } = firstWord h ∧
      unchangedWords { h with checksum := checksum } = unchangedWords h := ⟨rfl, rfl⟩
  rw [hrest, total_ipv4, total_ipv4, hsame.1, hsame.2] at htotal
  rw [hrest]
  exact add_left_cancel (add_right_cancel htotal)

theorem closeChecksum_openChecksum_ones :
    (closeChecksum (openChecksum h)).checksum = 0xffff ↔
      h.checksum = 0xffff ∧ h.totalLen = 0 ∧ firstWord h = 0 := by
  have hclose : (closeChecksum (openChecksum h)).checksum =
      (ipChecksumAdd (firstWord h) (ipChecksumAdd h.totalLen (openChecksum h))).checksum := rfl
  rw [hclose, ipChecksumAdd_ones, ipChecksumAdd_ones]
  constructor
  · rintro ⟨⟨hc, ht⟩, hw⟩
    have hopen : openChecksum h = ipChecksumSub (firstWord h) (ipChecksumSub h.totalLen h) := rfl
    rw [hopen, ht, hw, ipChecksumSub_zero, ipChecksumSub_zero] at hc
    exact ⟨hc, ht, hw⟩
  · rintro ⟨hc, ht, hw⟩
    have hopen : openChecksum h = ipChecksumSub (firstWord h) (ipChecksumSub h.totalLen h) := rfl
    rw [hopen, ht, hw, ipChecksumSub_zero, ipChecksumSub_zero]
    exact ⟨⟨hc, rfl⟩, rfl⟩

theorem closeChecksum_openChecksum_iff : closeChecksum (openChecksum h) = h ↔ ¬ OtherZero h := by
  have hones := closeChecksum_openChecksum_ones h
  constructor
  · rintro heq ⟨hc, hw⟩
    rw [heq] at hones
    obtain ⟨-, ht, hf⟩ := hones.mp hc
    exact hw.elim (fun hne => hne ht) (fun hne => hne hf)
  · intro hz
    have hchecksum : (closeChecksum (openChecksum h)).checksum = h.checksum := by
      apply eq_of_residue_eq _ _ (closeChecksum_openChecksum_residue h)
      refine hones.trans (and_iff_left_of_imp fun hc => ?_)
      by_contra hw
      exact hz ⟨hc, not_and_or.mp hw⟩
    obtain ⟨checksum, hrest⟩ := closeChecksum_openChecksum_rest h
    rw [hrest] at hchecksum ⊢
    change checksum = h.checksum at hchecksum
    rw [hchecksum]

end Zeros

theorem mapIpv4_frame (f : Ipv4 → Ipv4) (s : Segments) :
    (mapIpv4 f s).frame = s.frame ↔ f s.ipv4 = s.ipv4 := by
  constructor
  · intro h
    have hip := List.append_cancel_left h
    have hlen : (ipv4Codec.encode (f s.ipv4)).length = (ipv4Codec.encode s.ipv4).length := by
      rw [Codec.encode_length, Codec.encode_length]
    exact (ipv4Codec.encode_inj _ _).mp (List.append_inj_left hip hlen)
  · intro h
    rw [mapIpv4, h]

section Node

variable (hop : Hop) (hsrc : hop.cfg.srcEnable = false) (hsink : hop.cfg.sinkEnable = false)

include hsrc

theorem effect_plain (s : Segments) (hint : s.int = none) :
    hop.effect s = mapIpv4 (fun h => closeChecksum (openChecksum h)) s := by
  have htransit : transited hop.nodeMeta (mapIpv4 openChecksum s) = mapIpv4 openChecksum s := by
    have hopen : (mapIpv4 openChecksum s).int = none := hint
    rw [transited, hopen]
  have heffect : hop.effect s =
      mapIpv4 closeChecksum (transited hop.nodeMeta (mapIpv4 openChecksum s)) :=
    effect_passing hop.cfg hop.reg1 hop.arrival s hsrc
  rw [heffect, htransit]
  rfl

include hsink

theorem forward_plain_iff (d : Datagram) (hint : d.int = none) :
    hop.forward d.frame = some d.frame ↔ ¬ OtherZero d.ipv4 := by
  rw [forward_frame hop d.toSegments d.accepted hsink, effect_plain hop hsrc _ hint, Option.some.injEq,
    mapIpv4_frame, closeChecksum_openChecksum_iff]

/-- A transit node emits a frame without INT headers as it came exactly when it
is not a UDP or TCP frame whose IPv4 checksum is the other zero. -/
theorem transparent_iff (packet : List Byte) (p : Parsed)
    (hp : parserImpl hop.arrival.md packet = .ok p) (hint : p.hdr.intHeader = none) :
    hop.forward packet = some packet ↔ ¬ Altered p.hdr := by
  rcases parserImpl_cases hp with ⟨d, hd, rfl⟩ | ⟨eth, ip, hhdr, hframe⟩
  · have hl4 : d.headers.udp.isSome ∨ d.headers.tcp.isSome := by
      change d.l4.udp?.isSome ∨ d.l4.tcp?.isSome
      cases d.l4 with
      | udp h => exact .inl rfl
      | tcp h => exact .inr rfl
    have haltered : Altered d.headers ↔ OtherZero d.ipv4 := by
      rw [Altered, and_iff_right hl4]
      exact ⟨fun ⟨h, hh, hz⟩ => Option.some.inj hh ▸ hz, fun hz => ⟨d.ipv4, rfl, hz⟩⟩
    rw [hd, haltered]
    exact forward_plain_iff hop hsrc hsink d (Option.map_eq_none_iff.mp hint)
  · refine iff_of_true (forward_other hop p packet hp eth ip hhdr hframe) ?_
    rw [Altered, hhdr]
    rintro ⟨hl4 | hl4, -⟩
    · cases hl4
    · cases hl4

end Node

theorem transparent_sample : sampleTransit.forward sampleDatagram.frame = some sampleDatagram.frame := by
  rw [transparent_iff sampleTransit rfl rfl _ _
    (parserImpl_frame sampleTransit.arrival.md sampleDatagram.toSegments sampleDatagram.accepted) rfl]
  rintro ⟨-, h, hh, hz⟩
  cases hh
  revert hz
  decide

def onesDatagram : Datagram where
  ethernet := sampleDatagram.ethernet
  ipv4 := { sampleDatagram.ipv4 with id := 0x66cb, checksum := 0xffff }
  l4 := sampleDatagram.l4
  int := none
  payload := sampleDatagram.payload
  accepted := ⟨rfl, rfl, by decide, by simp⟩

theorem checksum_altered_sample : HeaderVerifies onesDatagram.frame ∧
    ∃ out, sampleTransit.forward onesDatagram.frame = some out ∧ out ≠ onesDatagram.frame := by
  have hverifies : HeaderVerifies onesDatagram.frame := by
    rw [HeaderVerifies, ipv4Bytes_frame]
    decide
  have hout := forward_frame sampleTransit onesDatagram.toSegments onesDatagram.accepted rfl
  refine ⟨hverifies, _, hout, ?_⟩
  intro hsame
  rw [hsame] at hout
  have hz := (forward_plain_iff sampleTransit rfl rfl onesDatagram rfl).mp hout
  exact hz ⟨rfl, .inl (by decide)⟩

end IntPlatform.T4p4s.Transparency
