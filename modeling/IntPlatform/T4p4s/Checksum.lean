import IntPlatform.Library.OnesComplement
import IntPlatform.T4p4s.Path

namespace IntPlatform.T4p4s.Checksum

open Library.Formats Library.HeaderValidity Library.OnesComplement
open HeaderTypes Parsing Controls Switch Effects T4p4s.Path

def ipv4Bytes (frame : List Byte) : List Byte := (frame.drop ethernetCodec.size).take ipv4Codec.size

def HeaderVerifies (frame : List Byte) : Prop := Verifies (words (ipv4Bytes frame))

instance (frame : List Byte) : Decidable (HeaderVerifies frame) :=
  inferInstanceAs (Decidable (Verifies _))

theorem ipv4Bytes_frame (s : Segments) : ipv4Bytes s.frame = ipv4Codec.encode s.ipv4 := by
  rw [ipv4Bytes, Segments.frame, List.drop_left' (ethernetCodec.encode_length _),
    List.take_left' (ipv4Codec.encode_length _)]

/-- End-around borrow, for every pair of words. -/
theorem residue_ipChecksumSub (value : BitVec 16) (h : Ipv4) :
    residue (ipChecksumSub value h).checksum = residue h.checksum + residue value := by
  have hc := h.checksum.isLt
  have hv := value.isLt
  have hn : (ipChecksumSub value h).checksum.toNat = h.checksum.toNat + value.toNat ∨
      (ipChecksumSub value h).checksum.toNat + 65535 = h.checksum.toNat + value.toNat := by
    simp only [ipChecksumSub]
    split
    · next hlt =>
      simp only [BitVec.lt_def, BitVec.toNat_not, BitVec.toNat_sub, BitVec.toNat_ofNat] at hlt ⊢
      omega
    · next hlt =>
      simp only [BitVec.lt_def, BitVec.toNat_not, BitVec.toNat_sub] at hlt ⊢
      omega
  rw [residue, residue, residue, ← Nat.cast_add]
  rcases hn with hn | hn
  · rw [hn]
  · rw [← hn, Nat.cast_add, ZMod.natCast_self, add_zero]

theorem residue_ipChecksumAdd (value : BitVec 16) (h : Ipv4) :
    residue (ipChecksumAdd value h).checksum + residue value = residue h.checksum := by
  have hc := h.checksum.isLt
  have hv := value.isLt
  have hn : (ipChecksumAdd value h).checksum.toNat + value.toNat = h.checksum.toNat ∨
      (ipChecksumAdd value h).checksum.toNat + value.toNat = h.checksum.toNat + 65535 := by
    simp only [ipChecksumAdd]
    split
    · next hlt =>
      simp only [BitVec.lt_def, BitVec.toNat_not, BitVec.toNat_add, BitVec.toNat_ofNat] at hlt ⊢
      omega
    · next hlt =>
      simp only [BitVec.lt_def, BitVec.toNat_not, BitVec.toNat_add] at hlt ⊢
      omega
  rw [residue, residue, residue, ← Nat.cast_add]
  rcases hn with hn | hn
  · rw [hn]
  · rw [hn, Nat.cast_add, ZMod.natCast_self, add_zero]

theorem firstWord_eq (h : Ipv4) :
    ((h.version ++ h.ihl : BitVec 8) ++ (h.dscp ++ h.ecn : BitVec 8) : BitVec 16) = firstWord h := by
  apply BitVec.eq_of_toNat_eq
  simp only [firstWord, BitVec.toNat_append, Nat.shiftLeft_or_distrib, ← Nat.shiftLeft_add, Nat.or_assoc]

def unchangedWords (h : Ipv4) : Residue :=
  residue h.id + residue (h.flags ++ h.fragOffset) + residue (h.ttl ++ h.protocol) +
    residue h.srcAddr + residue h.dstAddr

theorem words_ipv4 (h : Ipv4) :
    words (ipv4Codec.encode h) = firstWord h :: h.totalLen :: h.id ::
      (h.flags ++ h.fragOffset : BitVec 16) :: (h.ttl ++ h.protocol : BitVec 16) :: h.checksum ::
      words (be32.encode h.srcAddr ++ be32.encode h.dstAddr) := by
  have he : ipv4Codec.encode h = (h.version ++ h.ihl : BitVec 8) :: (h.dscp ++ h.ecn : BitVec 8) ::
      (be16.encode h.totalLen ++ (be16.encode h.id ++ (be16.encode (h.flags ++ h.fragOffset) ++
        (h.ttl :: h.protocol :: (be16.encode h.checksum ++
          (be32.encode h.srcAddr ++ be32.encode h.dstAddr)))))) := rfl
  rw [he]
  simp only [words, words_be16_append, firstWord_eq]

theorem total_ipv4 (h : Ipv4) :
    total (ipv4Codec.encode h) =
      residue (firstWord h) + residue h.totalLen + residue h.checksum + unchangedWords h := by
  have ht : ((words (be32.encode h.srcAddr ++ be32.encode h.dstAddr)).map residue).sum =
      residue h.srcAddr + residue h.dstAddr := by
    rw [← additive_be32.2, ← additive_be32.2]
    exact total_append _ _ (by simpa using additive_be32.1)
  rw [total, words_ipv4, unchangedWords]
  simp only [List.map_cons, List.sum_cons, ht]
  ring

/-- The protocol byte is not zero, so the header verifies as soon as the
residues of its words cancel. -/
theorem verifies_ipv4 (h : Ipv4) (hp : h.protocol ≠ 0) :
    Verifies (words (ipv4Codec.encode h)) ↔ total (ipv4Codec.encode h) = 0 := by
  refine verifies_iff_of_mem (a := h.ttl) (b := h.protocol) ?_ hp
  simp [words_ipv4]

/-- After the subtractions the checksum stands for the unchanged words alone. -/
theorem openChecksum_residue (h : Ipv4) :
    residue (openChecksum h).checksum + unchangedWords (openChecksum h) = total (ipv4Codec.encode h) := by
  have hu : unchangedWords (openChecksum h) = unchangedWords h := rfl
  have hw : firstWord (ipChecksumSub h.totalLen h) = firstWord h := rfl
  rw [hu, openChecksum, residue_ipChecksumSub, residue_ipChecksumSub, hw, total_ipv4]
  ring

theorem closeChecksum_residue (h : Ipv4) :
    total (ipv4Codec.encode (closeChecksum h)) = residue h.checksum + unchangedWords h := by
  have hw := residue_ipChecksumAdd (firstWord h) (ipChecksumAdd h.totalLen h)
  have ht := residue_ipChecksumAdd h.totalLen h
  have hc : (closeChecksum h).checksum =
      (ipChecksumAdd (firstWord h) (ipChecksumAdd h.totalLen h)).checksum := rfl
  have he : firstWord (closeChecksum h) = firstWord h ∧ (closeChecksum h).totalLen = h.totalLen ∧
      unchangedWords (closeChecksum h) = unchangedWords h := ⟨rfl, rfl, rfl⟩
  rw [total_ipv4, he.1, he.2.1, he.2.2, hc, ← ht, ← hw]
  ring

/-- Source and transit change no header word besides the two that are taken out
of the checksum before and put back after them. -/
theorem covered_changes (src : Bool) (seq : BitVec 16) (m : NodeMeta) (s : Segments) :
    (transited m (if src then configured seq s else s)).ipv4.checksum = s.ipv4.checksum ∧
      (transited m (if src then configured seq s else s)).ipv4.protocol = s.ipv4.protocol ∧
      unchangedWords (transited m (if src then configured seq s else s)).ipv4 =
        unchangedWords s.ipv4 := by
  obtain ⟨ethernet, ipv4, l4, int, payload⟩ := s
  cases src <;> cases int <;> exact ⟨rfl, rfl, rfl⟩

theorem total_effect (hop : Hop) (s : Segments) :
    total (ipv4Codec.encode (hop.effect s).ipv4) = total (ipv4Codec.encode s.ipv4) := by
  obtain ⟨hc, _, hu⟩ := covered_changes hop.cfg.srcEnable (nextSeq hop.reg1).1 hop.nodeMeta
    (mapIpv4 openChecksum s)
  rw [← openChecksum_residue s.ipv4, Hop.effect, effect, mapIpv4, closeChecksum_residue]
  exact congrArg₂ _ (congrArg residue hc) hu

theorem effect_protocol (hop : Hop) (s : Segments) :
    (hop.effect s).ipv4.protocol = s.ipv4.protocol :=
  (covered_changes hop.cfg.srcEnable (nextSeq hop.reg1).1 hop.nodeMeta (mapIpv4 openChecksum s)).2.1

theorem protocol_ne_zero (d : Datagram) : d.ipv4.protocol ≠ 0 := by
  rw [d.accepted.protocol]
  cases d.l4 <;> simp [Transport.protocol]

theorem effect_verifies (hop : Hop) (d : Datagram) (h : HeaderVerifies d.frame) :
    HeaderVerifies (hop.effect d.toSegments).frame := by
  have hp := protocol_ne_zero d
  rw [HeaderVerifies, ipv4Bytes_frame] at h ⊢
  rw [verifies_ipv4 _ hp] at h
  rw [verifies_ipv4 _ (by rwa [effect_protocol]), total_effect, h]

theorem runPath_verifies (hops : List Hop) (hk : ∀ hop ∈ hops, hop.cfg.sinkEnable = false)
    (frame out : List Byte) (hrun : runPath hops frame = some out) (h : HeaderVerifies frame) :
    HeaderVerifies out := by
  induction hops generalizing frame with
  | nil =>
      cases hrun
      exact h
  | cons hop hops ih =>
      obtain ⟨mid, hmid, hrest⟩ := Option.bind_eq_some_iff.mp hrun
      refine ih (fun g hg => hk g (List.mem_cons_of_mem hop hg)) mid hrest ?_
      rcases forward_cases hop frame mid (hk hop List.mem_cons_self) hmid with ⟨d, rfl, rfl⟩ | rfl
      · exact effect_verifies hop d h
      · exact h

/-- Every source or transit node emits a verifying header for a verifying one,
and so does every node of a path of them. -/
theorem ipv4_checksum_maintained (frame : List Byte) (hl4 : IsL4 frame) (hv : HeaderVerifies frame) :
    (∀ hop : Hop, hop.cfg.sinkEnable = false →
      ∃ out, hop.forward frame = some out ∧ HeaderVerifies out) ∧
    ∀ hops : List Hop, (∀ hop ∈ hops, hop.cfg.sinkEnable = false) →
      ∀ visited, visited <+: hops → ∀ out, runPath visited frame = some out → HeaderVerifies out := by
  obtain ⟨d, rfl⟩ := (isL4_iff frame).mp hl4
  refine ⟨fun hop hk => ⟨_, forward_frame hop _ d.accepted hk, effect_verifies hop d hv⟩, ?_⟩
  intro hops hk visited hpre out hrun
  exact runPath_verifies visited (fun hop hm => hk hop (hpre.subset hm)) _ out hrun hv

theorem ipv4_checksum_maintained_sample :
    ∃ out, runPath [sampleSource, sampleTransit] sampleDatagram.frame = some out ∧ HeaderVerifies out := by
  have hm := ipv4_checksum_maintained sampleDatagram.frame
    ((isL4_iff _).mpr ⟨sampleDatagram, rfl⟩) (by decide)
  obtain ⟨out, hout⟩ : ∃ out, runPath [sampleSource, sampleTransit] sampleDatagram.frame = some out :=
    Option.isSome_iff_exists.mp (by decide +kernel)
  exact ⟨out, hout, hm.2 [sampleSource, sampleTransit] (by decide) _ (List.prefix_refl _) out hout⟩

end IntPlatform.T4p4s.Checksum
