import IntPlatform.P4c.Effects
import IntPlatform.Library.ChecksumUnit

namespace IntPlatform.P4c.UdpChecksum

open Library.Formats Library.HeaderValidity Library.OnesComplement Library.ChecksumUnit
open HeaderTypes Parsing Ingress Deparser NodeFields Effects

/-- What the checksum of a UDP frame covers: the pseudo-header with the length
field of the UDP header, then everything behind the IPv4 header. -/
def covered (frame : List Byte) : List Byte :=
  (frame.drop 26).take 8 ++ ([0#8, frame.getD 23 0] ++ ((frame.drop 38).take 2 ++ frame.drop 34))

def UdpVerifies (frame : List Byte) : Prop := Verifies (words (covered frame))

instance (frame : List Byte) : Decidable (UdpVerifies frame) := inferInstanceAs (Decidable (Verifies _))

def fixed (s : Segments) (u : Udp) : Residue :=
  residue s.ipv4.srcAddr + residue s.ipv4.dstAddr + residue s.ipv4.protocol + residue u.srcPort +
    residue u.dstPort

def shimRest (h : Intl4Shim) : Residue :=
  residue h.intType * 256 + residue h.rsvd1 + residue h.dscp + (residue h.rsvd3 * 256 + residue h.padding)

def headerRest (h : TransitIntHeader) : Residue :=
  residue h.ver * 256 + residue h.rep + residue h.cE + residue h.mRsvd1 + residue h.rsvd2 +
    residue h.instructionMask + residue h.rsvd3

def intTotal : Option (Intl4Shim × TransitIntHeader) → Residue
  | none => 0
  | some (s, h) => shimRest s + residue s.len * 256 + (headerRest h + residue h.hopInfo)

theorem total_intBytes (int : Option (Intl4Shim × TransitIntHeader)) (rest : List Byte) :
    total (intBytes int ++ rest) = intTotal int + total rest := by
  cases int with
  | none => exact (zero_add _).symm
  | some r =>
      obtain ⟨s, h⟩ := r
      have he : intBytes (some (s, h)) ++ rest =
          byte.encode s.intType ++ (byte.encode s.rsvd1 ++ (byte.encode s.len ++ (byte.encode s.dscp ++
          (byte.encode s.rsvd3 ++ (byte.encode s.padding ++ (byte.encode h.ver ++ (byte.encode h.rep ++
          (be16.encode h.cE ++ (be16.encode h.mRsvd1 ++ (be16.encode h.rsvd2 ++ (be16.encode h.hopInfo ++
          (be16.encode h.instructionMask ++ (be16.encode h.rsvd3 ++ rest))))))))))))) := rfl
      rw [he]
      simp only [total_bytes_append, additive_be16.total_append, intTotal, shimRest, headerRest]
      ring

theorem covered_frame (s : Segments) (u : Udp) (hl4 : s.l4 = .udp u) :
    covered s.frame = be32.encode s.ipv4.srcAddr ++ (be32.encode s.ipv4.dstAddr ++ (byte.encode 0#8 ++
      (byte.encode s.ipv4.protocol ++ (be16.encode u.len ++ (be16.encode u.srcPort ++
      (be16.encode u.dstPort ++ (be16.encode u.len ++ (be16.encode u.csum ++
      (intBytes s.int ++ s.payload))))))))) := by
  obtain ⟨ethernet, ipv4, l4, int, payload⟩ := s
  dsimp only at hl4
  subst hl4
  rfl

theorem total_covered (s : Segments) (u : Udp) (hl4 : s.l4 = .udp u) :
    total (covered s.frame) = fixed s u + 2 * residue u.len + residue u.csum + intTotal s.int +
      total s.payload := by
  rw [covered_frame s u hl4]
  simp only [total_bytes_append, additive_be16.total_append, additive_be32.total_append, total_intBytes,
    fixed, residue_zero]
  ring

/-- The protocol is a word of the pseudo-header, so it verifies as soon as the
residues cancel. -/
theorem udpVerifies_iff (s : Segments) (u : Udp) (hl4 : s.l4 = .udp u) (hp : s.ipv4.protocol ≠ 0) :
    UdpVerifies s.frame ↔ total (covered s.frame) = 0 := by
  rw [UdpVerifies]
  apply verifies_iff_of_mem (a := 0#8) (b := s.ipv4.protocol) _ hp
  rw [covered_frame s u hl4, words_append _ _ (by simpa using additive_be32.1),
    words_append _ _ (by simpa using additive_be32.1)]
  exact List.mem_append_right _ (List.mem_append_right _ List.mem_cons_self)

theorem total_emit_ite {α : Type} [Inhabited α] (c : Codec α) (data : α → List (BitVec 16)) (a : α) (b : Bool)
    (rest : List Byte) (hd : ((data default).map residue).sum = 0)
    (ha : total (c.encode a ++ rest) = ((data a).map residue).sum + total rest) :
    total (emit c (if b then some a else none) ++ rest) =
      ((data (read (if b then some a else none))).map residue).sum + total rest := by
  cases b with
  | false =>
      change total rest = ((data default).map residue).sum + total rest
      rw [hd, zero_add]
  | true => exact ha

theorem total_field {w : Nat} {c : Codec (BitVec w)} (h : Additive c) (x : BitVec w) (rest : List Byte) :
    total (c.encode x ++ rest) = ((field c x).map residue).sum + total rest := by
  rw [residue_field h, h.total_append]

theorem total_fields {w : Nat} {c : Codec (BitVec w)} (h : Additive c) (x y : BitVec w) (rest : List Byte) :
    total (c.encode x ++ c.encode y ++ rest) = ((field c x ++ field c y).map residue).sum + total rest := by
  rw [List.map_append, List.sum_append, List.append_assoc, total_field h, total_field h, add_assoc]

theorem total_chosenBytes (v : NodeValues) (c : Field → Bool) (rest : List Byte) :
    total (chosenBytes v c ++ rest) = ((nodeData (chosen v c)).map residue).sum + total rest := by
  have hswitch (rest : List Byte) := total_emit_ite intSwitchIdCodec (fun h => field be32 h.switchId)
    ⟨v.switchId⟩ (c .switchId) rest rfl (total_field additive_be32 _ rest)
  have hports (rest : List Byte) := total_emit_ite intPortIdsCodec
    (fun h => field be16 h.ingressPortId ++ field be16 h.egressPortId)
    ⟨v.ingressPort, v.egressPort⟩ (c .portIds) rest rfl (total_fields additive_be16 _ _ rest)
  have hlatency (rest : List Byte) := total_emit_ite intHopLatencyCodec (fun h => field be32 h.hopLatency)
    ⟨0⟩ (c .hopLatency) rest rfl (total_field additive_be32 _ rest)
  have hqueue (rest : List Byte) := total_emit_ite intQOccupancyCodec
    (fun h => field byte h.qId ++ field be24 h.qOccupancy) ⟨0, 0⟩ (c .qOccupancy) rest rfl
    ((total_field additive_be32 0#32 rest).trans rfl)
  have hingress (rest : List Byte) := total_emit_ite intIngressTstampCodec
    (fun h => field be64 h.ingressTstamp) ⟨v.ingressTstamp⟩ (c .ingressTstamp) rest rfl
    (total_field additive_be64 _ rest)
  have hegress (rest : List Byte) := total_emit_ite intEgressTstampCodec
    (fun h => field be64 h.egressTstamp) ⟨0⟩ (c .egressTstamp) rest rfl (total_field additive_be64 _ rest)
  have hlevel2 (rest : List Byte) := total_emit_ite intLevel2PortIdsCodec
    (fun h => field be16 h.ingressPortId ++ field be16 h.egressPortId) ⟨0, 0⟩ (c .level2PortIds) rest rfl
    (total_fields additive_be16 _ _ rest)
  have hutil (rest : List Byte) := total_emit_ite intEgressPortTxUtilCodec
    (fun h => field be32 h.egressPortTxUtil) ⟨0⟩ (c .egressPortTxUtil) rest rfl
    (total_field additive_be32 _ rest)
  rw [← emitNode_chosen]
  simp only [emitNode, chosen, List.append_assoc, hswitch, hports, hlatency, hqueue, hingress, hegress,
    hlevel2, hutil, nodeData, List.map_append, List.sum_append]
  ring

theorem nodeData_invalid : ((nodeData NodeMetadata.invalid).map residue).sum = 0 := by
  have h := total_chosenBytes ⟨0, 0, 0, 0⟩ (fun _ => false) []
  exact left_eq_add.mp ((zero_add _).trans (h.trans (add_comm _ _)))

section Units

variable (hdr : Headers)

theorem residue_openUdp : residue (openUdp hdr).sum =
    -(residue (read hdr.udp).csum + 2 * residue (read hdr.ckHelper).oldUdpLen) := by
  simp only [openUdp, InternetChecksum.residue_subtract, InternetChecksum.residue_clear,
    residue_field additive_be16]
  ring

/-- The fields that a transit node adds at the end are those it took out. -/
theorem residue_udpChecksum_transit (u : Udp) (hu : hdr.udp = some u) :
    residue (read (udpChecksum false hdr).udp).csum =
      residue u.csum + 2 * residue (read hdr.ckHelper).oldUdpLen +
        residue (read hdr.ckHelper).oldShimLen * 256 + residue (read hdr.ckHelper).oldHop -
        (2 * residue u.len + residue (read hdr.intShim).len * 256 +
          residue (read hdr.transitIntHeader).hopInfo + ((nodeData hdr.node).map residue).sum) := by
  simp only [udpChecksum, hu, write_some, read_some, Bool.false_eq_true, ↓reduceIte,
    InternetChecksum.residue_get, InternetChecksum.residue_add, InternetChecksum.residue_subtract,
    residue_openUdp, List.map_append, List.sum_append, residue_field additive_be16, residue_field_byte]
  ring

theorem residue_sourceData (shim : Intl4Shim) (h : TransitIntHeader) :
    ((sourceData shim h).map residue).sum =
      (residue shim.intType + residue shim.rsvd1 + residue shim.dscp + residue shim.rsvd3 +
        residue h.ver + residue h.rep) * 256 + residue h.cE + residue h.mRsvd1 + residue h.rsvd2 +
        residue h.hopInfo + residue h.instructionMask + residue h.rsvd3 := by
  simp only [sourceData, List.map_append, List.sum_append, residue_field additive_be16,
    residue_field_byte]
  ring

/-- At a source the corrected rsvd3 takes the old checksum out again. -/
theorem residue_udpChecksum_source (u : Udp) (shim : Intl4Shim) (h : TransitIntHeader)
    (hu : hdr.udp = some u) (hs : hdr.intShim = some shim) (hh : hdr.transitIntHeader = some h) :
    residue (read (udpChecksum true hdr).udp).csum =
      -(2 * residue u.len + residue shim.len * 256 + residue h.hopInfo +
        ((nodeData hdr.node).map residue).sum +
        ((sourceData shim { h with rsvd3 := 0#16 }).map residue).sum) := by
  simp only [udpChecksum, hu, hs, hh, write_some, read_some, ↓reduceIte, InternetChecksum.residue_get,
    InternetChecksum.residue_add, residue_openUdp, List.map_append, List.sum_append,
    residue_field additive_be16, residue_field_byte, residue_sourceData, residue_zero]
  ring

end Units

end IntPlatform.P4c.UdpChecksum
