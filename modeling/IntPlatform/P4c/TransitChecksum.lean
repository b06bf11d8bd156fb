import IntPlatform.P4c.Accounting
import IntPlatform.P4c.Ipv4Checksum
import IntPlatform.P4c.UdpChecksum

namespace IntPlatform.P4c.TransitChecksum

open Library.Formats Library.HeaderValidity Library.OnesComplement Library.ChecksumUnit
open HeaderTypes Parsing Ingress Deparser NodeFields Effects Accounting UdpChecksum Ipv4Checksum

section Transit

variable (hop : Hop) (s : Segments) (u : Udp) (shim : Intl4Shim) (h : TransitIntHeader)
  (htransit : IsTransit hop) (hl4 : s.l4 = .udp u) (hint : s.int = some (shim, h))

include htransit hl4 hint

theorem residue_csum_inserted (hx : h.hopInfo ≠ exhausted hop.program.constants) (i : Insertion)
    (hi : i = hop.insertion h.instructionMask) :
    residue (hop.csum s) =
      residue u.csum + 2 * residue u.len + residue shim.len * 256 + residue h.hopInfo -
        (2 * residue (u.len + BitVec.ofNat 16 (i.words * 4)) +
          residue (shim.len + BitVec.ofNat 8 i.words) * 256 + residue (h.hopInfo - 1) +
          ((nodeData (chosen (hop.values s) i.fields)).map residue).sum) := by
  rw [Hop.csum, htransit.source,
    laden_inserted hop s _ shim h (sourcePart_transit hop s htransit.source) rfl hint hx, ← hi]
  obtain ⟨ethernet, ipv4, l4, int, payload⟩ := s
  dsimp only at hl4 hint
  subst hl4 hint
  exact residue_udpChecksum_transit _ { u with len := u.len + BitVec.ofNat 16 (i.words * 4) } rfl

theorem residue_csum_exceeded (hx : h.hopInfo = exhausted hop.program.constants) :
    residue (hop.csum s) = residue u.csum := by
  rw [Hop.csum, htransit.source,
    laden_exceeded hop s _ shim h (sourcePart_transit hop s htransit.source) hint hx]
  obtain ⟨ethernet, ipv4, l4, int, payload⟩ := s
  dsimp only at hl4 hint
  subst hl4 hint
  refine (residue_udpChecksum_transit _ u rfl).trans ?_
  change residue u.csum + 2 * residue u.len + residue shim.len * 256 + residue h.hopInfo -
    (2 * residue u.len + residue shim.len * 256 + residue (exceed h).hopInfo +
      ((nodeData NodeMetadata.invalid).map residue).sum) = _
  rw [nodeData_invalid, exceed_eq h]
  ring

theorem total_inserted (hx : h.hopInfo ≠ exhausted hop.program.constants) :
    total (covered (hop.effect s).frame) = total (covered s.frame) := by
  have hc := residue_csum_inserted hop s u shim h htransit hl4 hint hx _ rfl
  rw [effect_inserted hop s shim h htransit.source hint hx, hl4]
  rw [total_covered _ _ rfl, total_covered s u hl4, hint]
  simp only [total_chosenBytes, hc, intTotal, fixed, shimRest, headerRest]
  ring

theorem total_exceeded (hx : h.hopInfo = exhausted hop.program.constants) :
    total (covered (hop.effect s).frame) =
      total (covered s.frame) + residue (exceed h).cE - residue h.cE := by
  have hc := residue_csum_exceeded hop s u shim h htransit hl4 hint hx
  rw [effect_exceeded hop s shim h htransit.source hint hx, hl4]
  rw [total_covered _ _ rfl, total_covered s u hl4, hint, exceed_eq h]
  simp only [hc, intTotal, fixed, headerRest]
  ring

end Transit

theorem exceed_residue (h : TransitIntHeader) :
    residue (exceed h).cE = residue h.cE ↔ ¬ (h.cE = 0x0000 ∨ h.cE = 0x0100) := by
  rw [exceed]
  split
  · next hc =>
    refine iff_of_false ?_ (not_not.mpr hc)
    dsimp only [residue]
    rw [ZMod.natCast_eq_natCast_iff']
    rcases hc with hc | hc <;> rw [hc] <;> decide
  · next hc => exact iff_of_true rfl hc

section Frame

variable (hop : Hop) (htransit : IsTransit hop) (d : Datagram) (u : Udp) (hl4 : d.l4 = .udp u)
  (shim : Intl4Shim) (h : TransitIntHeader) (hint : d.int = some (shim, h))
  (hv : UdpVerifies d.frame)

include htransit hl4 hint hv

theorem effect_udpVerifies_iff :
    UdpVerifies (hop.effect d.toSegments).frame ↔
      ¬ (h.hopInfo = exhausted hop.program.constants ∧ (h.cE = 0x0000 ∨ h.cE = 0x0100)) := by
  have hp := d.protocol_ne_zero u hl4
  rw [udpVerifies_iff _ u hl4 hp] at hv
  by_cases hx : h.hopInfo = exhausted hop.program.constants
  · have he := effect_exceeded hop d.toSegments shim h htransit.source hint hx
    have hl4' : (hop.effect d.toSegments).l4 = .udp { u with csum := hop.csum d.toSegments } := by
      rw [he, hl4]
      rfl
    have hp' : (hop.effect d.toSegments).ipv4.protocol ≠ 0 := by rwa [he]
    rw [udpVerifies_iff _ _ hl4' hp', total_exceeded hop _ u shim h htransit hl4 hint hx, hv, zero_add,
      sub_eq_zero, exceed_residue]
    exact ⟨fun hc hn => hc hn.2, fun hn hc => hn ⟨hx, hc⟩⟩
  · have he := effect_inserted hop d.toSegments shim h htransit.source hint hx
    have hl4' := congrArg Segments.l4 he
    rw [hl4] at hl4'
    have hp' : (hop.effect d.toSegments).ipv4.protocol ≠ 0 := by rwa [he]
    rw [udpVerifies_iff _ _ hl4' hp', total_inserted hop _ u shim h htransit hl4 hint hx, hv]
    exact iff_of_true rfl fun hn => hx hn.1

/-- A transit node keeps the UDP checksum right unless it sets the exceeded bit. -/
theorem udp_checksum_kept_iff :
    (∃ out, hop.forward d.frame = some out ∧ UdpVerifies out) ↔
      ¬ (h.hopInfo = exhausted hop.program.constants ∧ (h.cE = 0x0000 ∨ h.cE = 0x0100)) := by
  rw [forward_frame hop d.toSegments d.accepted htransit.sink,
    ← effect_udpVerifies_iff hop htransit d u hl4 shim h hint hv]
  constructor
  · rintro ⟨out, hout, ho⟩
    rwa [Option.some.inj hout]
  · intro ho
    exact ⟨_, rfl, ho⟩

end Frame

theorem udp_checksum_kept_sample :
    ∃ out, (sampleHop false .defaultConf).forward (sampleCarrying (sampleHeader 0x00cc) 0xaedd).frame =
      some out ∧ UdpVerifies out :=
  (udp_checksum_kept_iff (sampleHop false .defaultConf) ⟨rfl, rfl⟩
    (sampleCarrying (sampleHeader 0x00cc) 0xaedd) ⟨5000, 6000, 32, 0xaedd⟩ rfl ⟨1, 0, 5, 0, 0, 0⟩
    (sampleHeader 0x00cc) rfl (by decide +kernel)).mpr fun h => absurd h.1 (by decide)

/-- A verifying frame that arrives with its hop count used up leaves with a
checksum that does not know the exceeded bit. -/
theorem exceeded_not_covered :
    (sampleCarrying ⟨1, 0, 0, 0, 0, 0x0600, 0x00cc, 0⟩ 0xaee1).l4.udp?.isSome ∧
      UdpVerifies (sampleCarrying ⟨1, 0, 0, 0, 0, 0x0600, 0x00cc, 0⟩ 0xaee1).frame ∧
      ¬ ∃ out, (sampleHop false .defaultConf).forward
          (sampleCarrying ⟨1, 0, 0, 0, 0, 0x0600, 0x00cc, 0⟩ 0xaee1).frame = some out ∧
        UdpVerifies out := by
  have hv : UdpVerifies (sampleCarrying ⟨1, 0, 0, 0, 0, 0x0600, 0x00cc, 0⟩ 0xaee1).frame := by
    decide +kernel
  refine ⟨rfl, hv, ?_⟩
  rintro ⟨out, hout, ho⟩
  rw [forward_frame _ _ (sampleCarrying _ _).accepted rfl] at hout
  cases hout
  exact (effect_udpVerifies_iff (sampleHop false .defaultConf) ⟨rfl, rfl⟩
    (sampleCarrying ⟨1, 0, 0, 0, 0, 0x0600, 0x00cc, 0⟩ 0xaee1) _ rfl _ _ rfl hv).mp ho
    ⟨by decide, .inl rfl⟩

section Ipv4

variable (hop : Hop) (s : Segments) (htransit : IsTransit hop)

include htransit

theorem ipv4_laden :
    (read (hop.laden s).headers.ckHelper).oldTotalLen = s.ipv4.totalLen ∧
      ∃ totalLen, (hop.laden s).ipv4 = { s.ipv4 with totalLen := totalLen } := by
  have hp := sourcePart_transit hop s htransit.source
  cases hint : s.int with
  | none =>
      have hs : (saved { s with node := NodeMetadata.invalid, ckHelper := none }).int = none := hint
      have hl : hop.laden s = saved { s with node := NodeMetadata.invalid, ckHelper := none } := by
        rw [Hop.laden, hp, transited, hs]
      rw [hl]
      exact ⟨rfl, s.ipv4.totalLen, rfl⟩
  | some r =>
      obtain ⟨shim, h⟩ := r
      by_cases hx : h.hopInfo = exhausted hop.program.constants
      · rw [laden_exceeded hop s _ shim h hp hint hx]
        exact ⟨rfl, s.ipv4.totalLen, rfl⟩
      · rw [laden_inserted hop s _ shim h hp rfl hint hx]
        exact ⟨rfl, s.ipv4.totalLen + BitVec.ofNat 16 ((hop.insertion h.instructionMask).words * 4), rfl⟩

theorem total_ipv4_transit :
    total (ipv4Codec.encode (hop.effect s).ipv4) = total (ipv4Codec.encode s.ipv4) := by
  obtain ⟨hold, totalLen, hlen⟩ := ipv4_laden hop s htransit
  have heffect : (hop.effect s).ipv4 = { (hop.laden s).ipv4 with hdrChecksum := hop.hdrChecksum s } := rfl
  have hread : read (hop.laden s).headers.ipv4 = (hop.laden s).ipv4 := rfl
  have hsum : residue (hop.hdrChecksum s) =
      residue s.ipv4.hdrChecksum + residue s.ipv4.totalLen - residue totalLen := by
    rw [Hop.hdrChecksum, htransit.source, residue_ipv4Checksum, hold, hread, hlen]
  have ht := total_ipv4_changed s.ipv4 s.ipv4.dscp totalLen (hop.hdrChecksum s)
  rw [heffect, hlen, ht, hsum]
  ring

end Ipv4

/-- A transit node keeps the header checksum right for every frame with a UDP or
TCP header, whatever it carries and whatever the node inserts. -/
theorem ipv4_checksum_kept (hop : Hop) (htransit : IsTransit hop) (d : Datagram)
    (hv : HeaderVerifies d.frame) : ∃ out, hop.forward d.frame = some out ∧ HeaderVerifies out := by
  have hp : d.ipv4.protocol ≠ 0 := by
    rw [d.accepted.protocol]
    cases d.l4 with
    | udp u => exact show 0x11#8 ≠ 0 by decide
    | tcp u => exact show 0x6#8 ≠ 0 by decide
  have hp' : (hop.effect d.toSegments).ipv4.protocol ≠ 0 := by
    obtain ⟨-, totalLen, hlen⟩ := ipv4_laden hop d.toSegments htransit
    have heffect : (hop.effect d.toSegments).ipv4.protocol = (hop.laden d.toSegments).ipv4.protocol := rfl
    rwa [heffect, hlen]
  refine ⟨_, forward_frame hop d.toSegments d.accepted htransit.sink, ?_⟩
  rw [headerVerifies_iff _ hp] at hv
  rw [headerVerifies_iff _ hp', total_ipv4_transit hop d.toSegments htransit, hv]

theorem ipv4_checksum_kept_sample :
    ∃ out, (sampleHop false .defaultConf).forward (sampleCarrying (sampleHeader 0x00cc) 0xaedd).frame =
        some out ∧ HeaderVerifies out :=
  ipv4_checksum_kept (sampleHop false .defaultConf) ⟨rfl, rfl⟩
    (sampleCarrying (sampleHeader 0x00cc) 0xaedd) (by decide +kernel)

end IntPlatform.P4c.TransitChecksum
