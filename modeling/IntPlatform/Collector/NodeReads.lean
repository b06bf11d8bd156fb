import IntPlatform.Collector.Fields

namespace IntPlatform.Collector.NodeReads

open Library.Formats Library.SlotTable Records ProcessPacket Outcome Buffers Fields

structure Load where
  index : Nat
  offset : Nat
deriving DecidableEq, Repr

def Load.bytes (l : Load) : List Nat := List.range' (l.offset + 8) 16

def nodeLoopLoads (region : List Byte) : Nat → Nat → Nat → NodeLoop maxNodes → List Load × Except Fault (NodeLoop maxNodes)
  | 0, _, _, s => ([], pure s)
  | n + 1, i, offset, s =>
      match deref intMetaCodec (region.drop offset) with
      | .error fault => ([⟨i, offset⟩], .error fault)
      | .ok (h, _) =>
          match nodeIteration i h s with
          | .error fault => ([⟨i, offset⟩], .error fault)
          | .ok s =>
              let r := nodeLoopLoads region n (i + 1) (offset + intMetaCodec.size) s
              (⟨i, offset⟩ :: r.1, r.2)

def getIntNodeDataLoads (tmpHdr : TelemetricHdr) (prevTimestamps : Timestamps maxNodes) (region : List Byte)
    (metaCnt : BitVec 8) : List Load × Except Fault (TelemetricHdr × Timestamps maxNodes) :=
  match deref intMetaCodec region with
  | .error fault => ([⟨0, 0⟩], .error fault)
  | .ok (first, _) =>
      let tmpHdr := { tmpHdr with origTs := ntoh64 first.ingressTstamp }
      let tmpHdr := { tmpHdr with delay := tmpHdr.dstTs - tmpHdr.origTs }
      let r := nodeLoopLoads region metaCnt.toNat 0 0
        ⟨ntoh64 first.egressTstamp, prevTimestamps, tmpHdr.nodeMeta⟩
      (⟨0, 0⟩ :: r.1, do
        let s ← r.2
        let (prev, prevTimestamps) ← exchange s.prevTimestamps metaCnt.toNat tmpHdr.dstTs
        let node := ⟨s.tmpEgTimestamp - tmpHdr.dstTs, 0, tmpHdr.dstTs - prev, metaCnt, tmpHdr.dstTs⟩
        pure ({ tmpHdr with nodeMeta := s.nodeMeta ++ [node] }, prevTimestamps))

def processPacketLoads (opt : Options) (st : State) (buff : List Byte) :
    List Load × Except Fault (TelemetricHdr × State) :=
  match deref intInfluxCodec (buff.drop 14), deref le64 (buff.drop 14) with
  | .error fault, _ => ([], .error fault)
  | _, .error fault => ([], .error fault)
  | .ok (intHdr, intMetaHdr), .ok (mapKey, _) =>
      let (tmpHdr, flowMap) := getIntHeaderData default st.flowMap intHdr mapKey
      if intHdr.hopMetaLen = 0 then ([], .error .divisionByZero)
      else
        let metaCnt := intHdr.metaLen / intHdr.hopMetaLen
        let r := getIntNodeDataLoads tmpHdr st.prevTimestamps intMetaHdr metaCnt
        (r.1, do
          let (tmpHdr, prevTimestamps) ← r.2
          pure (cutTimestamps opt tmpHdr, { st with flowMap := flowMap, prevTimestamps := prevTimestamps }))

/-- Every node lies where the header announces it: in the 4 * metaLen bytes of
the region, and the k-th one at 4 * hopMetaLen * k. -/
def Announced (h : IntInflux) (loads : List Load) : Prop :=
  ∀ l ∈ loads, (∀ j ∈ l.bytes, j < 4 * h.metaLen.toNat) ∧ l.offset = 4 * h.hopMetaLen.toNat * l.index

theorem nodeLoopLoads_snd (region : List Byte) (n i offset : Nat) (s : NodeLoop maxNodes) :
    (nodeLoopLoads region n i offset s).2 = nodeLoop n i (region.drop offset) s := by
  induction n generalizing i offset s with
  | zero => rfl
  | succ n ih =>
      rw [nodeLoopLoads, nodeLoop, deref]
      cases hread : intMetaCodec.read (region.drop offset) with
      | none => rfl
      | some r =>
          obtain ⟨h, p⟩ := r
          have hp : p = region.drop (offset + intMetaCodec.size) := by
            rw [Codec.read] at hread
            split at hread
            · cases hread
            · cases hread
              exact List.drop_drop
          cases hiter : nodeIteration i h s with
          | error fault =>
              simp only [ok_bind, hiter]
              rfl
          | ok s' =>
              simp only [ok_bind, hiter]
              rw [ih, hp]

theorem getIntNodeDataLoads_snd (tmpHdr : TelemetricHdr) (t : Timestamps maxNodes) (region : List Byte)
    (metaCnt : BitVec 8) :
    (getIntNodeDataLoads tmpHdr t region metaCnt).2 = getIntNodeData tmpHdr t region metaCnt := by
  rw [getIntNodeDataLoads, getIntNodeData]
  cases deref intMetaCodec region with
  | error fault => rfl
  | ok r =>
      simp only [ok_bind, nodeLoopLoads_snd, List.drop_zero]

theorem processPacketLoads_snd (opt : Options) (st : State) (buff : List Byte) :
    (processPacketLoads opt st buff).2 = processPacket opt st buff := by
  rw [processPacketLoads, processPacket]
  cases deref intInfluxCodec (buff.drop 14) with
  | error fault => rfl
  | ok r =>
      cases deref le64 (buff.drop 14) with
      | error fault => rfl
      | ok k =>
          simp only [ok_bind]
          split
          · rfl
          · rw [getIntNodeDataLoads_snd]

theorem processPacketLoads_fst (opt : Options) (st : State) (b : List Byte) (h : b.length = pktBufSize)
    (hhop : (influxOf b).hopMetaLen ≠ 0) :
    ∃ tmpHdr, (processPacketLoads opt st b).1 =
      (getIntNodeDataLoads tmpHdr st.prevTimestamps (regionOf b)
        ((influxOf b).metaLen / (influxOf b).hopMetaLen)).1 := by
  obtain ⟨hsplit, heth, -⟩ := buffer_eq b h
  obtain ⟨next, hkey⟩ := deref_mapKey (influxOf b) (regionOf b)
  refine ⟨(getIntHeaderData default st.flowMap (influxOf b) (mapKey (influxOf b))).1, ?_⟩
  have hdrop : b.drop 14 = intInfluxCodec.encode (influxOf b) ++ regionOf b := by
    nth_rewrite 1 [hsplit]
    exact List.drop_left' heth
  rw [processPacketLoads, hdrop, deref_encode, hkey]
  dsimp only
  rw [if_neg hhop]

theorem mem_nodeLoopLoads (region : List Byte) (n i offset : Nat) (s : NodeLoop maxNodes) :
    ∀ l ∈ (nodeLoopLoads region n i offset s).1, i ≤ l.index ∧ l.index < i + n ∧
      l.offset = offset + intMetaCodec.size * (l.index - i) := by
  induction n generalizing i offset s with
  | zero =>
      intro l hl
      cases hl
  | succ n ih =>
      have hhead (l : Load) (hl : l = ⟨i, offset⟩) : i ≤ l.index ∧ l.index < i + (n + 1) ∧
          l.offset = offset + intMetaCodec.size * (l.index - i) := by
        subst hl
        refine ⟨Nat.le_refl i, Nat.lt_add_of_pos_right (Nat.succ_pos n), ?_⟩
        rw [Nat.sub_self]
        rfl
      intro l hl
      rw [nodeLoopLoads] at hl
      split at hl
      · exact hhead l (List.mem_singleton.mp hl)
      · split at hl
        · exact hhead l (List.mem_singleton.mp hl)
        · rcases List.mem_cons.mp hl with hl | hl
          · exact hhead l hl
          · obtain ⟨hge, hlt, hoff⟩ := ih _ _ _ l hl
            have hsub : l.index - i = l.index - (i + 1) + 1 := by omega
            refine ⟨by omega, by omega, ?_⟩
            rw [hoff, hsub, Nat.mul_succ]
            omega

theorem second_mem (region : List Byte) (n : Nat) (s : NodeLoop maxNodes)
    (hregion : 2 * intMetaCodec.size ≤ region.length) :
    ⟨1, intMetaCodec.size⟩ ∈ (nodeLoopLoads region (n + 2) 0 0 s).1 := by
  have hsecond (s : NodeLoop maxNodes) :
      ⟨1, intMetaCodec.size⟩ ∈ (nodeLoopLoads region (n + 1) 1 intMetaCodec.size s).1 := by
    rw [nodeLoopLoads]
    split
    · exact List.mem_singleton_self _
    · split
      · exact List.mem_singleton_self _
      · exact List.mem_cons_self
  have hsize : intMetaCodec.size ≤ region.length := by omega
  rw [nodeLoopLoads, List.drop_zero, deref_frontNode region hsize]
  dsimp only
  rw [nodeIteration_of_lt 0 _ s (by decide)]
  dsimp only
  rw [Nat.zero_add]
  exact List.mem_cons_of_mem _ (hsecond _)

theorem announced_iff_load (h : IntInflux) (l : Load) :
    (∀ j ∈ l.bytes, j < 4 * h.metaLen.toNat) ↔ l.offset + 24 ≤ 4 * h.metaLen.toNat := by
  simp only [Load.bytes, List.mem_range'_1]
  constructor
  · intro hj
    have := hj (l.offset + 23) (by omega)
    omega
  · intro hle j hj
    omega

section Region

variable (region : List Byte) (h : IntInflux)

theorem getIntNodeDataLoads_fst (tmpHdr : TelemetricHdr) (t : Timestamps maxNodes) (metaCnt : BitVec 8)
    (hregion : intMetaCodec.size ≤ region.length) :
    ∃ s, (getIntNodeDataLoads tmpHdr t region metaCnt).1 =
      ⟨0, 0⟩ :: (nodeLoopLoads region metaCnt.toNat 0 0 s).1 := by
  rw [getIntNodeDataLoads, deref_frontNode region hregion]
  exact ⟨_, rfl⟩

theorem stride_of_announced (s : NodeLoop maxNodes) (hregion : 2 * intMetaCodec.size ≤ region.length)
    (hall : Announced h (nodeLoopLoads region (metaCntOf h) 0 0 s).1) :
    h.hopMetaLen = 6 ∨ metaCntOf h ≤ 1 := by
  by_cases hone : metaCntOf h ≤ 1
  · exact .inr hone
  · obtain ⟨n, hn⟩ := Nat.exists_eq_add_of_le (Nat.not_le.mp hone)
    rw [Nat.add_comm] at hn
    have hmem := hall ⟨1, intMetaCodec.size⟩ (by
      rw [hn]
      exact second_mem region n _ hregion)
    have hsix : h.hopMetaLen.toNat = 6 := by
      have hsize : intMetaCodec.size = 24 := rfl
      have := hmem.2
      rw [hsize] at this
      dsimp only at this
      omega
    exact .inl (BitVec.eq_of_toNat_eq hsix)

theorem announced_of_stride (s : NodeLoop maxNodes) (hlen : 6 ≤ h.metaLen.toNat)
    (hcases : h.hopMetaLen = 6 ∨ metaCntOf h ≤ 1) :
    Announced h (nodeLoopLoads region (metaCntOf h) 0 0 s).1 := by
  intro l hl
  rw [announced_iff_load]
  obtain ⟨-, hlt, hoff⟩ := mem_nodeLoopLoads region _ 0 0 _ l hl
  have hsize : intMetaCodec.size = 24 := rfl
  rw [Nat.zero_add] at hlt
  rw [Nat.zero_add, Nat.sub_zero, hsize] at hoff
  rcases hcases with hsix | hone
  · have hmul : metaCntOf h * h.hopMetaLen.toNat ≤ h.metaLen.toNat := by
      rw [metaCntOf, BitVec.toNat_udiv]
      exact Nat.div_mul_le_self _ _
    have hsix' : h.hopMetaLen.toNat = 6 := by
      rw [hsix]
      rfl
    rw [hsix'] at hmul ⊢
    exact ⟨by omega, by omega⟩
  · have hidx : l.index = 0 := by omega
    rw [hidx] at hoff ⊢
    exact ⟨by omega, by omega⟩

theorem announced_iff (tmpHdr : TelemetricHdr) (t : Timestamps maxNodes)
    (hregion : 2 * intMetaCodec.size ≤ region.length) :
    Announced h (getIntNodeDataLoads tmpHdr t region (h.metaLen / h.hopMetaLen)).1 ↔
      6 ≤ h.metaLen.toNat ∧ (h.hopMetaLen = 6 ∨ metaCntOf h ≤ 1) := by
  obtain ⟨s, hloads⟩ := getIntNodeDataLoads_fst region tmpHdr t (h.metaLen / h.hopMetaLen) (by omega)
  have hfirst : ((∀ j ∈ (Load.mk 0 0).bytes, j < 4 * h.metaLen.toNat) ∧
      (0 : Nat) = 4 * h.hopMetaLen.toNat * 0) ↔ 6 ≤ h.metaLen.toNat := by
    rw [announced_iff_load]
    dsimp only
    omega
  rw [hloads, Announced, List.forall_mem_cons, hfirst]
  exact and_congr_right fun hlen =>
    ⟨stride_of_announced region h s hregion, announced_of_stride region h s hlen⟩

end Region

theorem announced_recvfrom (opt : Options) (st : State) (frame buffer : List Byte)
    (h : buffer.length = pktBufSize) (hhop : (influxOf (recvfrom frame buffer)).hopMetaLen ≠ 0) :
    Announced (influxOf (recvfrom frame buffer))
        (processPacketLoads opt st (recvfrom frame buffer)).1 ↔
      6 ≤ (influxOf (recvfrom frame buffer)).metaLen.toNat ∧
        ((influxOf (recvfrom frame buffer)).hopMetaLen = 6 ∨
          metaCntOf (influxOf (recvfrom frame buffer)) ≤ 1) := by
  have hlen := recvfrom_length frame buffer h
  obtain ⟨tmpHdr, hloads⟩ := processPacketLoads_fst opt st (recvfrom frame buffer) hlen hhop
  obtain ⟨-, -, hregion⟩ := buffer_eq (recvfrom frame buffer) hlen
  rw [hloads]
  exact announced_iff _ _ tmpHdr st.prevTimestamps
    (Nat.le_trans (Nat.mul_le_mul_right _ (by decide)) hregion)

/-- The nodes of a received frame are read just where they are announced exactly
when there is room for one and the second lies one structure behind the first.
The loads are those of the packet that is processed. -/
theorem node_reads_iff (opt : Options) (st : State) (frame buffer : List Byte)
    (h : buffer.length = pktBufSize) (hhop : (influxOf (recvfrom frame buffer)).hopMetaLen ≠ 0) :
    (processPacketLoads opt st (recvfrom frame buffer)).2 =
        processPacket opt st (recvfrom frame buffer) ∧
      (Announced (influxOf (recvfrom frame buffer))
          (processPacketLoads opt st (recvfrom frame buffer)).1 ↔
        6 ≤ (influxOf (recvfrom frame buffer)).metaLen.toNat ∧
          ((influxOf (recvfrom frame buffer)).hopMetaLen = 6 ∨
            metaCntOf (influxOf (recvfrom frame buffer)) ≤ 1)) :=
  ⟨processPacketLoads_snd opt st _, announced_recvfrom opt st frame buffer h hhop⟩

def lengthsFrame (metaLen hopMetaLen : Byte) : List Byte :=
  List.replicate 26 0 ++ [metaLen, hopMetaLen] ++ List.replicate 22 0

theorem influxOf_lengthsFrame_append (metaLen hopMetaLen : Byte) (nodes buffer : List Byte) :
    (influxOf (recvfrom (lengthsFrame metaLen hopMetaLen ++ nodes) buffer)).metaLen = metaLen ∧
      (influxOf (recvfrom (lengthsFrame metaLen hopMetaLen ++ nodes) buffer)).hopMetaLen =
        hopMetaLen := by
  rw [influxOf_recvfrom _ buffer (by rw [List.length_append]; exact Nat.le_add_right 50 nodes.length)]
  exact ⟨rfl, rfl⟩

theorem influxOf_lengthsFrame (metaLen hopMetaLen : Byte) (buffer : List Byte) :
    (influxOf (recvfrom (lengthsFrame metaLen hopMetaLen) buffer)).metaLen = metaLen ∧
      (influxOf (recvfrom (lengthsFrame metaLen hopMetaLen) buffer)).hopMetaLen = hopMetaLen := by
  have h := influxOf_lengthsFrame_append metaLen hopMetaLen [] buffer
  rwa [List.append_nil] at h

theorem node_reads_sample :
    Announced (influxOf (recvfrom (lengthsFrame 12 6 ++ List.replicate 48 0) (List.replicate pktBufSize 0)))
      (processPacketLoads ⟨1, 0, 1, 1⟩ State.initial
        (recvfrom (lengthsFrame 12 6 ++ List.replicate 48 0) (List.replicate pktBufSize 0))).1 := by
  obtain ⟨hlen, hhop⟩ := influxOf_lengthsFrame_append 12 6 (List.replicate 48 0) (List.replicate pktBufSize 0)
  have hreads := node_reads_iff ⟨1, 0, 1, 1⟩ State.initial (lengthsFrame 12 6 ++ List.replicate 48 0) _
    List.length_replicate (by rw [hhop]; decide)
  rw [hreads.2, hlen, hhop]
  exact ⟨by decide, .inl rfl⟩

/-- Without nodes the payload is read as one, and with three words for a hop the
second node is not read where it begins. -/
theorem node_reads_astray :
    ¬ Announced (influxOf (recvfrom (lengthsFrame 0 6) (List.replicate pktBufSize 0)))
        (processPacketLoads ⟨1, 0, 1, 1⟩ State.initial
          (recvfrom (lengthsFrame 0 6) (List.replicate pktBufSize 0))).1 ∧
      ¬ Announced (influxOf (recvfrom (lengthsFrame 6 3) (List.replicate pktBufSize 0)))
        (processPacketLoads ⟨1, 0, 1, 1⟩ State.initial
          (recvfrom (lengthsFrame 6 3) (List.replicate pktBufSize 0))).1 := by
  constructor
  · obtain ⟨hlen, hhop⟩ := influxOf_lengthsFrame 0 6 (List.replicate pktBufSize 0)
    rw [announced_recvfrom _ _ _ _ List.length_replicate (by rw [hhop]; decide), hlen]
    exact fun hroom => absurd hroom.1 (by decide)
  · obtain ⟨hlen, hhop⟩ := influxOf_lengthsFrame 6 3 (List.replicate pktBufSize 0)
    rw [announced_recvfrom _ _ _ _ List.length_replicate (by rw [hhop]; decide), metaCntOf, hlen, hhop]
    rintro ⟨-, hstride | hcnt⟩
    · revert hstride
      decide
    · revert hcnt
      decide

end IntPlatform.Collector.NodeReads
