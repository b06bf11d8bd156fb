import IntPlatform.P4c.Effects

namespace IntPlatform.P4c.Ipv4Checksum

open Library.Formats Library.HeaderValidity Library.OnesComplement Library.ChecksumUnit
open HeaderTypes Parsing Deparser Effects

def ipv4Bytes (frame : List Byte) : List Byte := (frame.drop ethernetCodec.size).take ipv4Codec.size

def HeaderVerifies (frame : List Byte) : Prop := Verifies (words (ipv4Bytes frame))

instance (frame : List Byte) : Decidable (HeaderVerifies frame) :=
  inferInstanceAs (Decidable (Verifies _))

theorem ipv4Bytes_frame (s : Segments) : ipv4Bytes s.frame = ipv4Codec.encode s.ipv4 := by
  rw [ipv4Bytes, Segments.frame, List.drop_left' (ethernetCodec.encode_length _),
    List.take_left' (ipv4Codec.encode_length _)]

theorem encode_ipv4 (h : Ipv4) :
    ipv4Codec.encode h = byte.encode h.versionIhl ++ (byte.encode h.dscp ++ (be16.encode h.totalLen ++
      (be16.encode h.id ++ (be16.encode h.flagsFlagOffset ++ (byte.encode h.ttl ++
      (byte.encode h.protocol ++ (be16.encode h.hdrChecksum ++
      (be32.encode h.srcAddr ++ (be32.encode h.dstAddr ++ []))))))))) := rfl

theorem total_ipv4 (h : Ipv4) :
    total (ipv4Codec.encode h) = residue h.versionIhl * 256 + residue h.dscp + residue h.totalLen +
      residue h.id + residue h.flagsFlagOffset + residue h.ttl * 256 + residue h.protocol +
      residue h.hdrChecksum + residue h.srcAddr + residue h.dstAddr := by
  have hz : total [] = 0 := rfl
  rw [encode_ipv4]
  simp only [total_bytes_append, additive_be16.total_append, additive_be32.total_append, hz]
  ring

theorem total_ipv4_changed (h : Ipv4) (dscp : BitVec 8) (totalLen hdrChecksum : BitVec 16) :
    total (ipv4Codec.encode
        { h with dscp := dscp, totalLen := totalLen, hdrChecksum := hdrChecksum }) =
      total (ipv4Codec.encode h) + (residue dscp - residue h.dscp) +
        (residue totalLen - residue h.totalLen) + (residue hdrChecksum - residue h.hdrChecksum) := by
  rw [total_ipv4, total_ipv4]
  ring

theorem headerVerifies_iff (s : Segments) (hp : s.ipv4.protocol ≠ 0) :
    HeaderVerifies s.frame ↔ total (ipv4Codec.encode s.ipv4) = 0 := by
  rw [HeaderVerifies, ipv4Bytes_frame]
  apply verifies_iff_of_mem (a := s.ipv4.ttl) (b := s.ipv4.protocol) _ hp
  rw [encode_ipv4]
  exact List.mem_cons_of_mem _ (List.mem_cons_of_mem _ (List.mem_cons_of_mem _
    (List.mem_cons_of_mem _ List.mem_cons_self)))

theorem residue_ipv4Checksum_source (hdr : Headers) :
    residue (ipv4Checksum true hdr) =
      residue (read hdr.ipv4).hdrChecksum + residue (read hdr.ckHelper).oldTotalLen +
        residue (read hdr.ckHelper).oldDscp - residue (read hdr.ckHelper).ipv4Dscp -
        residue (read hdr.ipv4).totalLen := by
  simp only [ipv4Checksum, ↓reduceIte, InternetChecksum.residue_get, InternetChecksum.residue_add,
    InternetChecksum.residue_subtract, InternetChecksum.residue_clear, residue_field additive_be16]
  ring

theorem residue_ipv4Checksum (hdr : Headers) :
    residue (ipv4Checksum false hdr) =
      residue (read hdr.ipv4).hdrChecksum + residue (read hdr.ckHelper).oldTotalLen -
        residue (read hdr.ipv4).totalLen := by
  simp only [ipv4Checksum, Bool.false_eq_true, ↓reduceIte, InternetChecksum.residue_get,
    InternetChecksum.residue_add, InternetChecksum.residue_subtract, InternetChecksum.residue_clear,
    residue_field additive_be16]
  ring

end IntPlatform.P4c.Ipv4Checksum
