import IntPlatform.Collector.Extension

namespace IntPlatform.Collector.UpperBits

open Library.Formats Library.SlotTable Records ProcessPacket Outcome Buffers Runs Fields Extension

variable {slots : Nat}

/-- The places of the upper 16 bits of the timestamps: the one of the sink, and
those of the nodes, one structure after the other. -/
def Upper (p : Nat) : Prop :=
  p = 30 ∨ p = 31 ∨ 58 ≤ p ∧ ((p - 58) % 24 = 0 ∨ (p - 58) % 24 = 1 ∨ (p - 58) % 24 = 8 ∨ (p - 58) % 24 = 9)

instance (p : Nat) : Decidable (Upper p) := inferInstanceAs (Decidable (_ ∨ _))

/-- Two texts of bytes that differ in nothing but the upper 16 bits of their
timestamps. -/
structure Twins (f g : List Byte) : Prop where
  length : f.length = g.length
  bytes : ∀ p, ¬ Upper p → f[p]? = g[p]?

theorem Twins.refl (f : List Byte) : Twins f f := ⟨rfl, fun _ _ => rfl⟩

theorem Twins.symm {f g : List Byte} (h : Twins f g) : Twins g f :=
  ⟨h.length.symm, fun p hp => (h.bytes p hp).symm⟩

theorem Twins.recvfrom {f g b b' : List Byte} (hf : Twins f g) (hb : Twins b b') :
    Twins (recvfrom f b) (recvfrom g b') := by
  refine ⟨?_, ?_⟩
  · rw [ProcessPacket.recvfrom, ProcessPacket.recvfrom, List.length_take, List.length_take,
      List.length_append, List.length_append, List.length_drop, List.length_drop, hf.length, hb.length]
  · intro p hp
    rw [ProcessPacket.recvfrom, ProcessPacket.recvfrom, List.getElem?_take, List.getElem?_take,
      List.getElem?_append, List.getElem?_append, List.getElem?_drop, List.getElem?_drop, hf.length, hf.bytes p hp]
    by_cases hlt : p < g.length
    · rw [if_pos hlt, if_pos hlt]
    · have hadd : g.length + (p - g.length) = p := by omega
      rw [if_neg hlt, if_neg hlt, hadd, hb.bytes p hp]

section Buffers

variable {b b' : List Byte} (h : Twins b b')

include h

theorem Twins.slice (i n : Nat) (hin : ∀ p, i ≤ p → p < i + n → ¬ Upper p) :
    slice b i n = slice b' i n := by
  ext1 j
  rw [Fields.slice, Fields.slice, List.getElem?_take, List.getElem?_take, List.getElem?_drop,
    List.getElem?_drop]
  by_cases hj : j < n
  · rw [if_pos hj, if_pos hj, h.bytes (i + j) (hin _ (by omega) (by omega))]
  · rw [if_neg hj, if_neg hj]

theorem Twins.influxOf :
    ((influxOf b).srcAddr = (influxOf b').srcAddr ∧ (influxOf b).dstAddr = (influxOf b').dstAddr) ∧
      ((influxOf b).ingressPortId = (influxOf b').ingressPortId ∧
        (influxOf b).egressPortId = (influxOf b').egressPortId) ∧
      ((influxOf b).metaLen = (influxOf b').metaLen ∧
        (influxOf b).hopMetaLen = (influxOf b').hopMetaLen) ∧
      (influxOf b).seq = (influxOf b').seq := by
  have hslice (i n : Nat) (hi : 32 ≤ i ∨ i + n ≤ 30) (hn : i + n ≤ 58) :
      Fields.slice b i n = Fields.slice b' i n := by
    apply h.slice
    intro p hp hlt
    rw [Upper]
    omega
  rw [influxOf_eq b, influxOf_eq b']
  exact ⟨⟨congrArg le32.decode (hslice 14 4 (by omega) (by omega)),
      congrArg le32.decode (hslice 18 4 (by omega) (by omega))⟩,
    ⟨congrArg le16.decode (hslice 22 2 (by omega) (by omega)),
      congrArg le16.decode (hslice 24 2 (by omega) (by omega))⟩,
    ⟨congrArg byte.decode (hslice 26 1 (by omega) (by omega)),
      congrArg byte.decode (hslice 27 1 (by omega) (by omega))⟩,
    congrArg le32.decode (hslice 46 4 (by omega) (by omega))⟩

theorem Twins.metaCntOf : metaCntOf (Buffers.influxOf b) = metaCntOf (Buffers.influxOf b') := by
  obtain ⟨-, -, ⟨hmeta, hhop⟩, -⟩ := h.influxOf
  rw [Buffers.metaCntOf, Buffers.metaCntOf, hmeta, hhop]

theorem Twins.mapKey : mapKey (Buffers.influxOf b) = mapKey (Buffers.influxOf b') := by
  obtain ⟨⟨hsrc, hdst⟩, -⟩ := h.influxOf
  rw [Outcome.mapKey, Outcome.mapKey, hsrc, hdst]

end Buffers

section Records

theorem nodeRecords_inj (t t' : Timestamps slots) (nodes nodes' : List IntMeta) (i : Nat)
    (tmpEg tmpEg' : BitVec 64) (h : nodeRecords t i tmpEg nodes = nodeRecords t' i tmpEg' nodes') :
    nodes.map times = nodes'.map times ∧ ∀ j < nodes.length, entry t (i + j) = entry t' (i + j) := by
  induction nodes generalizing i tmpEg tmpEg' nodes' with
  | nil =>
      cases nodes' with
      | nil => exact ⟨rfl, fun j hj => absurd hj (Nat.not_lt_zero j)⟩
      | cons node' nodes' => cases h
  | cons node nodes ih =>
      cases nodes' with
      | nil => cases h
      | cons node' nodes' =>
          rw [nodeRecords, nodeRecords, List.cons.injEq] at h
          obtain ⟨hnode, h⟩ := h
          obtain ⟨htimes, hentry⟩ := ih _ (i + 1) _ _ h
          have hegress : ntoh64 node.egressTstamp = ntoh64 node'.egressTstamp :=
            congrArg TelemetricMeta.hopTimestamp hnode
          have hdelay : ntoh64 node.egressTstamp - ntoh64 node.ingressTstamp =
              ntoh64 node'.egressTstamp - ntoh64 node'.ingressTstamp :=
            congrArg TelemetricMeta.hopDelay hnode
          have hjitter : ntoh64 node.ingressTstamp - entry t i = ntoh64 node'.ingressTstamp - entry t' i :=
            congrArg TelemetricMeta.hopJitter hnode
          have hingress : ntoh64 node.ingressTstamp = ntoh64 node'.ingressTstamp := by bv_omega
          refine ⟨?_, ?_⟩
          · rw [List.map_cons, List.map_cons, htimes, times, times, ntoh64_inj _ _ hegress,
              ntoh64_inj _ _ hingress]
          · intro j hj
            cases j with
            | zero =>
                rw [Nat.add_zero]
                bv_omega
            | succ j =>
                have hnext := hentry j (Nat.lt_of_succ_lt_succ hj)
                rw [Nat.add_assoc, Nat.add_comm 1 j] at hnext
                exact hnext

theorem times_front {nodes nodes' : List IntMeta} {first first' : IntMeta} (dstTs : BitVec 64)
    (hfront : ∀ node ∈ nodes.head?, node = first) (hfront' : ∀ node ∈ nodes'.head?, node = first')
    (htimes : nodes.map times = nodes'.map times)
    (hingress : ntoh64 first.ingressTstamp = ntoh64 first'.ingressTstamp)
    (hlink : lastEgress 0 (ntoh64 first.egressTstamp) nodes - dstTs =
      lastEgress 0 (ntoh64 first'.egressTstamp) nodes' - dstTs) : times first = times first' := by
  cases nodes with
  | nil =>
      obtain rfl := List.map_eq_nil_iff.mp htimes.symm
      rw [times, times, ntoh64_inj _ _ hingress, ntoh64_inj _ _ (sub_inj _ _ _ hlink)]
  | cons node nodes =>
      cases nodes' with
      | nil => cases htimes
      | cons node' nodes' =>
          rw [← hfront node rfl, ← hfront' node' rfl]
          exact (List.cons.inj htimes).1

variable (opt : Options) (st st' : Globals slots) (h h' : IntInflux) (nodes nodes' : List IntMeta)
  (first first' : IntMeta)

theorem recordOf_inj (hfront : ∀ node ∈ nodes.head?, node = first)
    (hfront' : ∀ node ∈ nodes'.head?, node = first') (hkey : mapKey h = mapKey h')
    (heq : cutTimestamps opt (recordOf st h nodes first) =
      cutTimestamps opt (recordOf st' h' nodes' first')) :
    (h.ndkTstamp = h'.ndkTstamp ∧ times first = times first' ∧ nodes.map times = nodes'.map times) ∧
      (st.flowMap (mapKey h)).prevDstTs = (st'.flowMap (mapKey h)).prevDstTs ∧
      ∀ i ≤ nodes.length, entry st.prevTimestamps i = entry st'.prevTimestamps i := by
  have hmeta := congrArg TelemetricHdr.nodeMeta heq
  have hdelay := congrArg TelemetricHdr.delay heq
  have hjitter := congrArg TelemetricHdr.sinkJitter heq
  rw [cutTimestamps_eq, cutTimestamps_eq opt (recordOf st' h' nodes' first')] at hjitter
  rw [cutTimestamps_nodeMeta, cutTimestamps_nodeMeta] at hmeta
  rw [cutTimestamps_delay, cutTimestamps_delay] at hdelay
  dsimp only at hjitter
  rw [recordOf_sinkJitter, recordOf_sinkJitter, ← hkey] at hjitter
  obtain ⟨hrecords, hsink⟩ := List.append_singleton_inj.mp hmeta
  obtain ⟨htimes, hentries⟩ := nodeRecords_inj _ _ nodes nodes' 0 _ _ hrecords
  have hlen : nodes.length = nodes'.length := by
    have := congrArg List.length htimes
    rwa [List.length_map, List.length_map] at this
  have hdst : ntoh64 h.ndkTstamp = ntoh64 h'.ndkTstamp := congrArg TelemetricMeta.hopTimestamp hsink
  have horig : ntoh64 h.ndkTstamp - ntoh64 first.ingressTstamp =
      ntoh64 h'.ndkTstamp - ntoh64 first'.ingressTstamp := hdelay
  have hlink : lastEgress 0 (ntoh64 first.egressTstamp) nodes - ntoh64 h.ndkTstamp =
      lastEgress 0 (ntoh64 first'.egressTstamp) nodes' - ntoh64 h'.ndkTstamp :=
    congrArg TelemetricMeta.linkDelay hsink
  have hlast : ntoh64 h.ndkTstamp - entry st.prevTimestamps nodes.length =
      ntoh64 h'.ndkTstamp - entry st'.prevTimestamps nodes'.length :=
    congrArg TelemetricMeta.hopJitter hsink
  rw [← hdst] at horig hlink hlast hjitter
  have hingress : ntoh64 first.ingressTstamp = ntoh64 first'.ingressTstamp := by bv_omega
  have hfirst := times_front _ hfront hfront' htimes hingress hlink
  refine ⟨⟨ntoh64_inj _ _ hdst, hfirst, htimes⟩, ?_, ?_⟩
  · bv_omega
  · intro i hi
    rcases Nat.eq_or_lt_of_le hi with rfl | hlt
    · rw [← hlen] at hlast
      bv_omega
    · have := hentries i hlt
      rwa [Nat.zero_add] at this

end Records

def SameTimes (b b' : List Byte) : Prop :=
  (influxOf b).ndkTstamp = (influxOf b').ndkTstamp ∧
    ∀ k < max 1 (metaCntOf (influxOf b)), times (nodeAt b k) = times (nodeAt b' k)

theorem sameTimes_iff (b b' : List Byte) (h : Twins b b') :
    SameTimes b b' ↔ (influxOf b).ndkTstamp = (influxOf b').ndkTstamp ∧
      times (nodeAt b 0) = times (nodeAt b' 0) ∧ (announced b).map times = (announced b').map times := by
  rw [SameTimes, announced_eq, announced_eq, ← h.metaCntOf, List.map_map, List.map_map, List.map_inj_left]
  simp only [List.mem_range, Function.comp_apply]
  refine and_congr_right fun _ => ⟨fun hall => ⟨hall 0 (by omega), fun k hk => hall k (by omega)⟩, ?_⟩
  rintro ⟨hzero, hall⟩ k hk
  cases k with
  | zero => exact hzero
  | succ k => exact hall (k + 1) (by omega)

theorem recorded_iff (opt : Options) (st st' : Globals slots) (b b' : List Byte) (h : Twins b b')
    (hseq : ∀ key, (st.flowMap key).seq = (st'.flowMap key).seq) :
    (recorded opt st b).1 = (recorded opt st' b').1 ↔ SameTimes b b' ∧
      (st.flowMap (mapKey (influxOf b))).prevDstTs = (st'.flowMap (mapKey (influxOf b))).prevDstTs ∧
      ∀ i ≤ metaCntOf (influxOf b), entry st.prevTimestamps i = entry st'.prevTimestamps i := by
  obtain ⟨⟨hsrc, hdst⟩, ⟨hin, heg⟩, -, hraw⟩ := h.influxOf
  have hfront (b : List Byte) : ∀ node ∈ (announced b).head?, node = nodeAt b 0 := by
    intro node hnode
    rw [announced_eq] at hnode
    cases hm : metaCntOf (influxOf b) with
    | zero =>
        rw [hm] at hnode
        cases hnode
    | succ m =>
        rw [hm, List.range_succ_eq_map, List.map_cons, List.head?_cons] at hnode
        exact (Option.some.inj hnode).symm
  rw [sameTimes_iff b b' h, ← announced_length, recorded, recorded, frontNode_regionOf, frontNode_regionOf]
  constructor
  · intro heq
    exact recordOf_inj opt st st' _ _ _ _ _ _ (hfront b) (hfront b') h.mapKey heq
  · rintro ⟨⟨hndk, hfirst, htimes⟩, hprev, hentries⟩
    have hflow : st.flowMap (mapKey (influxOf b)) = st'.flowMap (mapKey (influxOf b)) :=
      MetaData.ext (hseq _) hprev
    rw [recordOf_state_congr st st' (influxOf b) (announced b) (nodeAt b 0) hflow hentries,
      recordOf_congr st' hsrc hdst hndk hraw hin heg htimes hfirst]

end IntPlatform.Collector.UpperBits
