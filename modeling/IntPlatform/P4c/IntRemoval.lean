import IntPlatform.P4c.Accounting
import IntPlatform.P4c.Ipv4Checksum
import IntPlatform.P4c.SinkEffect

namespace IntPlatform.P4c.IntRemoval

open Library.Formats Library.HeaderValidity Library.OnesComplement
open HeaderTypes Parsing Ingress Deparser NodeFields Effects Accounting Ipv4Checksum SinkEffect

structure WellFormed (frame : List Byte) : Prop where
  totalLen : (totalLen frame).toNat = frame.length - 14
  udpLen : udpLen frame = Accounting.totalLen frame - 20
  checksum : HeaderVerifies frame

def tos (frame : List Byte) : Byte := frame.getD 15 0

theorem tos_frame (s : Segments) : tos s.frame = s.ipv4.dscp := rfl

theorem udpFrame_length (s : Segments) (u : Udp) (hl4 : s.l4 = .udp u) :
    s.frame.length = 42 + (intBytes s.int).length + s.payload.length := by
  have heth : (ethernetCodec.encode s.ethernet).length = 14 := ethernetCodec.encode_length _
  have hip : (ipv4Codec.encode s.ipv4).length = 20 := ipv4Codec.encode_length _
  have hudp : (udpCodec.encode u).length = 8 := udpCodec.encode_length _
  rw [Segments.frame, hl4]
  simp only [List.length_append, heth, hip, Transport.encode, hudp]
  omega

theorem intBytes_length (shim : Intl4Shim) (h : TransitIntHeader) :
    (intBytes (some (shim, h))).length = 20 := rfl

theorem growthBytes_eq_zero (hop : Hop) (h : TransitIntHeader) :
    growthBytes hop h = 0#16 ↔
      h.hopInfo = exhausted hop.program.constants ∨
        (hop.insertion h.instructionMask).words * 4 % 65536 = 0 := by
  rw [growthBytes, growth]
  by_cases hx : h.hopInfo = exhausted hop.program.constants
  · rw [if_neg (not_not.mpr hx)]
    exact iff_of_true rfl (.inl hx)
  · rw [if_pos hx, or_iff_right hx, ← BitVec.toNat_inj, BitVec.toNat_ofNat]
    exact Iff.rfl

section Removal

variable (hop : Hop) (hsink : IsSink hop) (d : Datagram) (u : Udp) (shim : Intl4Shim)
  (h : TransitIntHeader) (hl4 : d.l4 = .udp u) (hint : d.int = some (shim, h))
  (hsel : hop.tables.tableSinkConfig.select u.srcPort = some .removeInt)

include hsink hl4 hint hsel

theorem forward_cleaned :
    ∃ clean : Segments, hop.forward d.frame = some clean.frame ∧
      clean.ipv4 = { d.ipv4 with
        dscp := shim.dscp
        totalLen := d.ipv4.totalLen + growthBytes hop h - 20
        hdrChecksum := clean.ipv4.hdrChecksum } ∧
      (∃ u', clean.l4 = .udp u' ∧ u'.len = d.ipv4.totalLen + growthBytes hop h - 20 - 20) ∧
      clean.int = none ∧ clean.payload = d.payload ∧
      residue clean.ipv4.hdrChecksum =
        residue d.ipv4.hdrChecksum + residue (d.ipv4.totalLen + growthBytes hop h) -
          residue (d.ipv4.totalLen + growthBytes hop h - 20) := by
  obtain ⟨shim', hdscp, hf⟩ := forward_removed hop hsink d.toSegments u shim h hl4 hint d.accepted hsel
  obtain ⟨shim2, h2, -, hl⟩ := laden_grown hop hsink d.toSegments shim h hint
  rw [hl] at hf
  refine ⟨_, hf, ?_, ⟨_, rfl, rfl⟩, rfl, rfl, residue_ipv4Checksum _⟩
  rw [← hdscp]
  rfl

omit hsink hint hsel in
theorem cleaned_verifies_iff (clean : Segments) (ck : BitVec 16) (hv : HeaderVerifies d.frame)
    (hip : clean.ipv4 = { d.ipv4 with
      dscp := shim.dscp
      totalLen := d.ipv4.totalLen + growthBytes hop h - 20
      hdrChecksum := ck })
    (hck : residue ck = residue d.ipv4.hdrChecksum + residue (d.ipv4.totalLen + growthBytes hop h) -
      residue (d.ipv4.totalLen + growthBytes hop h - 20)) :
    HeaderVerifies clean.frame ↔
      residue shim.dscp + residue (d.ipv4.totalLen + growthBytes hop h) =
        residue d.ipv4.dscp + residue d.ipv4.totalLen := by
  have hproto : clean.ipv4.protocol ≠ 0 := by
    rw [hip]
    exact d.protocol_ne_zero u hl4
  have hin := (headerVerifies_iff d.toSegments (d.protocol_ne_zero u hl4)).mp hv
  have hsum : total (ipv4Codec.encode clean.ipv4) =
      total (ipv4Codec.encode d.ipv4) + (residue shim.dscp +
        residue (d.ipv4.totalLen + growthBytes hop h) -
          (residue d.ipv4.dscp + residue d.ipv4.totalLen)) := by
    rw [hip, total_ipv4_changed, hck]
    ring
  rw [headerVerifies_iff clean hproto, hsum, hin, zero_add, sub_eq_zero]

theorem wellFormed_iff (hwf : WellFormed d.frame) :
    (∃ out, hop.forward d.frame = some out ∧ WellFormed out ∧ tos out = shim.dscp) ↔
      growthBytes hop h = 0#16 ∧ shim.dscp = d.ipv4.dscp := by
  obtain ⟨clean, hf, hip, ⟨u', hl4', hlen'⟩, hint', hpay, hck⟩ :=
    forward_cleaned hop hsink d u shim h hl4 hint hsel
  generalize clean.ipv4.hdrChecksum = ck at hip hck
  have hlen : clean.frame.length + 20 = d.frame.length := by
    have hnone : (intBytes none).length = 0 := rfl
    rw [udpFrame_length clean u' hl4', udpFrame_length d.toSegments u hl4, hint', hint, hpay,
      intBytes_length, hnone]
    omega
  have htotal : totalLen clean.frame = d.ipv4.totalLen + growthBytes hop h - 20 := by
    rw [totalLen_frame, hip]
  have hudp : udpLen clean.frame = totalLen clean.frame - 20 := by
    rw [udpLen_frame clean u' hl4', hlen', htotal]
  have hold := hwf.totalLen
  rw [totalLen_frame] at hold
  have hmin : 42 ≤ clean.frame.length := by
    rw [udpFrame_length clean u' hl4']
    omega
  have hbytes : (totalLen clean.frame).toNat = clean.frame.length - 14 ↔ growthBytes hop h = 0#16 := by
    rw [htotal]
    bv_omega
  have hverifies := cleaned_verifies_iff hop d u shim h hl4 clean ck hwf.checksum hip hck
  constructor
  · rintro ⟨out, hout, hw, -⟩
    cases hf.symm.trans hout
    have hg := hbytes.mp hw.totalLen
    have hs := hverifies.mp hw.checksum
    rw [hg, BitVec.add_zero, add_left_inj, residue_byte_inj] at hs
    exact ⟨hg, hs⟩
  · rintro ⟨hg, hs⟩
    refine ⟨_, hf, ⟨hbytes.mpr hg, hudp, hverifies.mpr ?_⟩, ?_⟩
    · rw [hg, hs, BitVec.add_zero]
    · rw [tos_frame, hip]

/-- After the removal of INT the frame is well formed exactly when this node
has added nothing to the lengths and the TOS byte stays as it is. -/
theorem int_removed_iff (hwf : WellFormed d.frame) :
    (∃ out, hop.forward d.frame = some out ∧ WellFormed out ∧ tos out = shim.dscp) ↔
      (h.hopInfo = exhausted hop.program.constants ∨
        (hop.insertion h.instructionMask).words * 4 % 65536 = 0) ∧ shim.dscp = d.ipv4.dscp := by
  rw [wellFormed_iff hop hsink d u shim h hl4 hint hsel hwf, growthBytes_eq_zero]

end Removal

def sampleSink (act : SinkAction) : Hop :=
  ⟨⟨sampleConstants, false, true, none⟩,
    { sampleTables .defaultConf with tableSinkConfig := ⟨[(5000, act)], some .defAction⟩ }, 0,
    ⟨⟨1, 100⟩, 0⟩⟩

theorem sampleCarrying_wellFormed : WellFormed (sampleCarrying (sampleHeader 0x00cc) 0).frame :=
  ⟨by decide +kernel, by decide +kernel, by decide +kernel⟩

def sampleExhausted : Datagram where
  ethernet := ⟨0x020000000002, 0x020000000001, 0x0800⟩
  ipv4 := ⟨0x45, 0x20, 52, 0, 0, 64, 17, 0x6697, 0x0a000001, 0x0a000002⟩
  l4 := .udp ⟨5000, 6000, 32, 0⟩
  int := some (⟨1, 0, 5, 0x20, 0, 0⟩, ⟨1, 0, 0, 0, 0, 0x0600, 0x00cc, 0⟩)
  payload := [1, 2, 3, 4]
  accepted := ⟨rfl, rfl, iff_of_true (show 0x20 &&& dscpMask = 0x20 from rfl) rfl⟩

theorem int_removed_sample :
    ∃ out, (sampleSink .removeInt).forward sampleExhausted.frame = some out ∧
      WellFormed out ∧ tos out = 0x20 :=
  (int_removed_iff (sampleSink .removeInt) ⟨rfl, rfl⟩ sampleExhausted ⟨5000, 6000, 32, 0⟩
    ⟨1, 0, 5, 0x20, 0, 0⟩ ⟨1, 0, 0, 0, 0, 0x0600, 0x00cc, 0⟩ rfl rfl rfl
    ⟨by decide +kernel, by decide +kernel, by decide +kernel⟩).mpr ⟨.inl rfl, rfl⟩

theorem removal_not_wellFormed :
    WellFormed (sampleCarrying (sampleHeader 0x00cc) 0).frame ∧
      ¬ ∃ out, (sampleSink .removeInt).forward (sampleCarrying (sampleHeader 0x00cc) 0).frame = some out ∧
        WellFormed out ∧ tos out = 0 := by
  refine ⟨sampleCarrying_wellFormed, ?_⟩
  intro h
  have hs := ((wellFormed_iff (sampleSink .removeInt) ⟨rfl, rfl⟩ (sampleCarrying (sampleHeader 0x00cc) 0)
    ⟨5000, 6000, 32, 0⟩ ⟨1, 0, 5, 0, 0, 0⟩ (sampleHeader 0x00cc) rfl rfl rfl
    sampleCarrying_wellFormed).mp h).2
  exact absurd hs (by decide)

end IntPlatform.P4c.IntRemoval
