import IntPlatform.P4c.Ipv4Checksum
import IntPlatform.P4c.UdpChecksum
import Mathlib.Tactic.LinearCombination

namespace IntPlatform.P4c.SourceChecksum

open Library.Formats Library.HeaderValidity Library.OnesComplement Library.ChecksumUnit
open HeaderTypes Parsing Ingress Deparser NodeFields Effects UdpChecksum Ipv4Checksum

theorem residue_one {w : Nat} : residue 1#(w + 1) = 1 := by simp [residue]

theorem sourceShim_none (tos : BitVec 8) :
    sourceShim tos (read none) = ⟨1#8, 0#8, 5#8, tos, 0#8, 0#8⟩ := rfl

theorem sourceHeader_none (n m : BitVec 16) :
    sourceHeader n m (read none) = ⟨1#8, 0#8, 0#16, 0#16, 0#16, n, m, 0#16⟩ := rfl

section Udp

variable (hop : Hop) (s : Segments) (n m : BitVec 16) (u : Udp)
  (hc : hop.configures s = some (n, m)) (hl4 : s.l4 = .udp u) (hint : s.int = none)

include hc hl4

/-- The old length that the deparser takes out is the one that the source
action has already grown. -/
theorem openUdp_source :
    (read (hop.laden s).headers.udp).csum = u.csum ∧
      (read (hop.laden s).headers.ckHelper).oldUdpLen = u.len + 20 := by
  have hp := sourcePart_source hop s n m hc
  by_cases hx : n = exhausted hop.program.constants
  · rw [laden_exceeded hop s _ _ _ hp rfl hx, sourced, hl4]
    exact ⟨rfl, rfl⟩
  · rw [laden_inserted hop s _ _ _ hp rfl rfl hx, sourced, hl4]
    exact ⟨rfl, rfl⟩

theorem residue_rsvd3 : residue (hop.rsvd3 s) = residue u.csum + 2 * residue (u.len + 20) := by
  obtain ⟨hcsum, hlen⟩ := openUdp_source hop s n m u hc hl4
  rw [Hop.rsvd3, InternetChecksum.residue_get, residue_openUdp, neg_neg, hcsum, hlen]

include hint

theorem headers_sourced (hx : n ≠ exhausted hop.program.constants) :
    (hop.laden s).headers.udp = some { u with
        len := u.len + 20 + BitVec.ofNat 16 ((hop.insertion m).words * 4) } ∧
      (hop.laden s).headers.intShim =
        some ⟨1#8, 0#8, 5 + BitVec.ofNat 8 (hop.insertion m).words, s.ipv4.dscp, 0#8, 0#8⟩ ∧
      (hop.laden s).headers.transitIntHeader = some ⟨1#8, 0#8, 0#16, 0#16, 0#16, n - 1, m, 0#16⟩ ∧
      (hop.laden s).headers.node = chosen (hop.values s) (hop.insertion m).fields := by
  rw [laden_inserted hop s _ _ _ (sourcePart_source hop s n m hc) rfl rfl hx, sourced, hl4, hint]
  exact ⟨rfl, rfl, rfl, rfl⟩

theorem headers_exceeded (hx : n = exhausted hop.program.constants) :
    (hop.laden s).headers.udp = some { u with len := u.len + 20 } ∧
      (hop.laden s).headers.intShim = some ⟨1#8, 0#8, 5#8, s.ipv4.dscp, 0#8, 0#8⟩ ∧
      (hop.laden s).headers.transitIntHeader = some ⟨1#8, 0#8, 1#16, 0#16, 0#16, n, m, 0#16⟩ ∧
      (hop.laden s).headers.node = NodeMetadata.invalid := by
  rw [laden_exceeded hop s _ _ _ (sourcePart_source hop s n m hc) rfl hx, sourced, hl4, hint]
  exact ⟨rfl, rfl, rfl, rfl⟩

theorem residue_csum_sourced (hx : n ≠ exhausted hop.program.constants) :
    residue (hop.csum s) =
      -(2 * residue (u.len + 20 + BitVec.ofNat 16 ((hop.insertion m).words * 4)) +
        residue (5 + BitVec.ofNat 8 (hop.insertion m).words) * 256 + 2 * residue (n - 1) + residue m +
        (2 + residue s.ipv4.dscp) * 256 +
        ((nodeData (chosen (hop.values s) (hop.insertion m).fields)).map residue).sum) := by
  obtain ⟨hu, hs, hh, hn⟩ := headers_sourced hop s n m u hc hl4 hint hx
  rw [Hop.csum, source_of_configures hop s n m hc, residue_udpChecksum_source _ _ _ _ hu hs hh, hn,
    residue_sourceData]
  simp only [residue_zero, residue_one]
  ring

theorem residue_csum_exceeded (hx : n = exhausted hop.program.constants) :
    residue (hop.csum s) =
      -(2 * residue (u.len + 20) + residue 5#8 * 256 + 2 * residue n + residue m +
        (2 + residue s.ipv4.dscp) * 256 + 1) := by
  obtain ⟨hu, hs, hh, hn⟩ := headers_exceeded hop s n m u hc hl4 hint hx
  rw [Hop.csum, source_of_configures hop s n m hc, residue_udpChecksum_source _ _ _ _ hu hs hh, hn,
    residue_sourceData, nodeData_invalid]
  simp only [residue_zero, residue_one]
  ring

def leaving (c : Constants) (n : BitVec 16) : BitVec 16 := if n = exhausted c then n else n - 1

theorem total_sourced :
    total (covered (hop.effect s).frame) =
      total (covered s.frame) + 2 * (residue (u.len + 20) - residue u.len) -
        255 * residue s.ipv4.dscp - residue (leaving hop.program.constants n) := by
  have hr := residue_rsvd3 hop s n m u hc hl4
  by_cases hx : n = exhausted hop.program.constants
  · have hsum := residue_csum_exceeded hop s n m u hc hl4 hint hx
    rw [effect_sourced_exceeded hop s n m hc hx, hl4, hint, leaving, if_pos hx, total_covered _ _ rfl,
      total_covered s u hl4, hint]
    simp only [Option.map_none, sourceShim_none, sourceHeader_none, hsum, intTotal, fixed, shimRest,
      headerRest, hr, residue_zero, residue_one]
    ring
  · have hsum := residue_csum_sourced hop s n m u hc hl4 hint hx
    rw [effect_sourced hop s n m hc hx, hl4, hint, leaving, if_neg hx, total_covered _ _ rfl,
      total_covered s u hl4, hint]
    simp only [Option.map_none, sourceShim_none, sourceHeader_none, total_chosenBytes, hsum, intTotal,
      fixed, shimRest, headerRest, hr, residue_zero, residue_one]
    ring

end Udp

section Ipv4

variable (hop : Hop) (s : Segments) (n m : BitVec 16) (hc : hop.configures s = some (n, m))

include hc

theorem ipv4_laden : ∃ totalLen,
    (hop.laden s).headers.ipv4 = some { s.ipv4 with dscp := 0x20#8, totalLen := totalLen } ∧
      (hop.effect s).ipv4 =
        { s.ipv4 with dscp := 0x20#8, totalLen := totalLen, hdrChecksum := hop.hdrChecksum s } := by
  have hp := sourcePart_source hop s n m hc
  by_cases hx : n = exhausted hop.program.constants
  · refine ⟨s.ipv4.totalLen + 20, ?_, ?_⟩
    · rw [laden_exceeded hop s _ _ _ hp rfl hx]
      rfl
    · rw [effect_sourced_exceeded hop s n m hc hx]
      rfl
  · refine ⟨s.ipv4.totalLen + 20 + BitVec.ofNat 16 ((hop.insertion m).words * 4), ?_, ?_⟩
    · rw [laden_inserted hop s _ _ _ hp rfl rfl hx]
      rfl
    · rw [effect_sourced hop s n m hc hx]
      rfl

theorem ckHelper_laden : ∃ oldUdpLen oldShimLen oldHop,
    (hop.laden s).headers.ckHelper =
      some ⟨oldUdpLen, oldShimLen, oldHop, 0#16, s.ipv4.totalLen + 20, 0x20#16, 0x11#16⟩ := by
  have hp := sourcePart_source hop s n m hc
  by_cases hx : n = exhausted hop.program.constants
  · rw [laden_exceeded hop s _ _ _ hp rfl hx]
    exact ⟨_, _, _, rfl⟩
  · rw [laden_inserted hop s _ _ _ hp rfl rfl hx]
    exact ⟨_, _, _, rfl⟩

/-- The TOS byte is taken out as zero, and the total length after it has grown. -/
theorem total_ipv4_sourced :
    total (ipv4Codec.encode (hop.effect s).ipv4) =
      total (ipv4Codec.encode s.ipv4) + (residue (s.ipv4.totalLen + 20) - residue s.ipv4.totalLen) -
        residue s.ipv4.dscp := by
  obtain ⟨totalLen, hi, he⟩ := ipv4_laden hop s n m hc
  obtain ⟨oldUdpLen, oldShimLen, oldHop, hk⟩ := ckHelper_laden hop s n m hc
  have hsum : residue (hop.hdrChecksum s) = residue s.ipv4.hdrChecksum +
      residue (s.ipv4.totalLen + 20) + 0 - residue 0x20#16 - residue totalLen := by
    rw [Hop.hdrChecksum, source_of_configures hop s n m hc, residue_ipv4Checksum_source, hi, hk]
    simp only [read_some, residue_zero]
  have ht : residue 0x20#8 = residue 0x20#16 := rfl
  rw [he, total_ipv4_changed, hsum, ht]
  ring

end Ipv4

def wraps (len : BitVec 16) : Nat := if 65516 ≤ len.toNat then 1 else 0

theorem residue_grown (len : BitVec 16) :
    residue (len + 20) - residue len = ((20 : Nat) : Residue) - (wraps len : Nat) := by
  have hl := len.isLt
  have hn : (len + 20).toNat + wraps len * 65536 = len.toNat + 20 := by
    rw [wraps]
    split <;> bv_omega
  have hc := congrArg (Nat.cast (R := Residue)) hn
  have h65536 : ((65536 : Nat) : Residue) = 1 := by
    rw [show 65536 = 65535 + 1 from rfl, Nat.cast_add, ZMod.natCast_self, zero_add, Nat.cast_one]
  rw [Nat.cast_add, Nat.cast_add, Nat.cast_mul, h65536, mul_one] at hc
  rw [residue, residue]
  linear_combination hc

section Frame

variable (hop : Hop) (d : Datagram) (n m : BitVec 16) (u : Udp)
  (hsource : IsSource hop d.toSegments n m) (hl4 : d.l4 = .udp u) (hint : d.int = none)

include hsource in
theorem effect_protocol : (hop.effect d.toSegments).ipv4.protocol = d.ipv4.protocol := by
  obtain ⟨totalLen, -, he⟩ := ipv4_laden hop d.toSegments n m hsource.configures
  rw [he]

include hsource hl4

theorem effect_headerVerifies_iff (hv : HeaderVerifies d.frame) :
    HeaderVerifies (hop.effect d.toSegments).frame ↔ d.ipv4.dscp.toNat + wraps d.ipv4.totalLen = 20 := by
  have hp := d.protocol_ne_zero u hl4
  have hp' : (hop.effect d.toSegments).ipv4.protocol ≠ 0 := by
    rwa [effect_protocol hop d n m hsource]
  have ht := total_ipv4_sourced hop d.toSegments n m hsource.configures
  rw [headerVerifies_iff _ hp] at hv
  rw [hv, residue_grown, zero_add, sub_sub, sub_eq_add_neg] at ht
  have hb : wraps d.ipv4.totalLen ≤ 1 := by
    rw [wraps]
    split <;> omega
  have ht8 := d.ipv4.dscp.isLt
  rw [headerVerifies_iff _ hp', ht, ← sub_eq_add_neg, sub_eq_zero, residue, ← Nat.cast_add,
    ZMod.natCast_eq_natCast_iff']
  omega

theorem effect_udp :
    ∃ len, (hop.effect d.toSegments).l4 = .udp { u with len := len, csum := hop.csum d.toSegments } := by
  by_cases hx : n = exhausted hop.program.constants
  · rw [effect_sourced_exceeded hop d.toSegments n m hsource.configures hx, hl4]
    exact ⟨_, rfl⟩
  · rw [effect_sourced hop d.toSegments n m hsource.configures hx, hl4]
    exact ⟨_, rfl⟩

include hint in
theorem effect_udpVerifies_iff (hv : UdpVerifies d.frame) :
    UdpVerifies (hop.effect d.toSegments).frame ↔
      (255 * d.ipv4.dscp.toNat + (leaving hop.program.constants n).toNat + 2 * wraps u.len) % 65535 =
        40 := by
  have hp := d.protocol_ne_zero u hl4
  have hp' : (hop.effect d.toSegments).ipv4.protocol ≠ 0 := by
    rwa [effect_protocol hop d n m hsource]
  obtain ⟨len, hl4'⟩ := effect_udp hop d n m u hsource hl4
  have ht := total_sourced hop d.toSegments n m u hsource.configures hl4 hint
  rw [udpVerifies_iff _ u hl4 hp] at hv
  rw [udpVerifies_iff _ _ hl4' hp', ht, hv, residue_grown]
  have hcast : (0 : Residue) + 2 * (((20 : Nat) : Residue) - (wraps u.len : Nat)) -
      255 * residue d.ipv4.dscp - residue (leaving hop.program.constants n) =
      ((40 : Nat) : Residue) -
        (255 * d.ipv4.dscp.toNat + (leaving hop.program.constants n).toNat + 2 * wraps u.len : Nat) := by
    rw [residue, residue]
    push_cast
    ring
  rw [hcast, sub_eq_zero, eq_comm, ZMod.natCast_eq_natCast_iff']

include hint in
/-- Both checksums of a source are right exactly when its two mistakes, about
the TOS byte and about the words it adds, happen to cancel. -/
theorem source_checksums_iff (hip : HeaderVerifies d.frame) (hudp : UdpVerifies d.frame) :
    (∃ out, hop.forward d.frame = some out ∧ HeaderVerifies out ∧ UdpVerifies out) ↔
      d.ipv4.dscp.toNat + wraps d.ipv4.totalLen = 20 ∧
        (255 * d.ipv4.dscp.toNat + (leaving hop.program.constants n).toNat + 2 * wraps u.len) % 65535 =
          40 := by
  rw [forward_frame hop d.toSegments d.accepted hsource.sink,
    ← effect_headerVerifies_iff hop d n m u hsource hl4 hip,
    ← effect_udpVerifies_iff hop d n m u hsource hl4 hint hudp]
  constructor
  · rintro ⟨out, hout, ho⟩
    rwa [Option.some.inj hout]
  · intro ho
    exact ⟨_, rfl, ho⟩

end Frame

def sampleCancelling : Datagram where
  ethernet := ⟨0x020000000002, 0x020000000001, 0x0800⟩
  ipv4 := ⟨0x45, 20, 32, 0, 0, 64, 17, 0x66b7, 0x0a000001, 0x0a000002⟩
  l4 := .udp ⟨5000, 6000, 12, 0xbcd5⟩
  int := none
  payload := [1, 2, 3, 4]
  accepted := ⟨rfl, rfl, by decide⟩

theorem source_checksums_sample :
    ∃ out, (sampleHop true (.configureSource 0xec3c 0x00cc)).forward sampleCancelling.frame = some out ∧
      HeaderVerifies out ∧ UdpVerifies out :=
  (source_checksums_iff (sampleHop true (.configureSource 0xec3c 0x00cc)) sampleCancelling 0xec3c 0x00cc
    ⟨5000, 6000, 12, 0xbcd5⟩ ⟨rfl, rfl⟩ rfl rfl (by decide +kernel) (by decide +kernel)).mpr
    (by decide +kernel)

theorem source_checksums_broken :
    HeaderVerifies sampleDatagram.frame ∧ UdpVerifies sampleDatagram.frame ∧
      ¬ ∃ out, (sampleHop true (.configureSource 0x0604 0x00cc)).forward sampleDatagram.frame = some out ∧
        HeaderVerifies out ∧ UdpVerifies out := by
  have hv : HeaderVerifies sampleDatagram.frame := by decide +kernel
  refine ⟨hv, by decide +kernel, ?_⟩
  rintro ⟨out, hout, ho, -⟩
  rw [forward_frame _ _ sampleDatagram.accepted rfl] at hout
  cases hout
  have ht := (effect_headerVerifies_iff (sampleHop true (.configureSource 0x0604 0x00cc)) sampleDatagram
    0x0604 0x00cc _ ⟨rfl, rfl⟩ rfl hv).mp ho
  exact absurd ht (by decide)

end IntPlatform.P4c.SourceChecksum
