import IntPlatform.Collector.Buffers

namespace IntPlatform.Collector.Fields

open Library.Formats Library.SlotTable Records ProcessPacket Outcome Buffers

variable {slots : Nat}

def slice (buffer : List Byte) (i n : Nat) : List Byte := (buffer.drop i).take n

theorem decode_pair {α β : Type} (c : Codec α) (d : Codec β) (b : List Byte) (i j k m n : Nat)
    (hk : c.size = k) (hn : n = k + m) (hj : j = i + k) :
    (pair c d).decode (slice b i n) = (c.decode (slice b i k), d.decode (slice b j m)) := by
  subst hk
  change (c.decode (List.take c.size (List.take _ (List.drop i b))),
    d.decode (List.drop c.size (List.take _ (List.drop i b)))) = _
  rw [hn, hj, List.take_take, Nat.min_eq_left (Nat.le_add_right _ _), List.drop_take, List.drop_drop,
    Nat.add_sub_cancel_left]
  rfl

theorem along_decode {α β : Type} (c : Codec α) (e : α ≃ β) (bs : List Byte) :
    (along c e).decode bs = e (c.decode bs) := rfl

theorem influxOf_eq (b : List Byte) : influxOf b =
    { srcAddr := le32.decode (slice b 14 4)
      dstAddr := le32.decode (slice b 18 4)
      ingressPortId := le16.decode (slice b 22 2)
      egressPortId := le16.decode (slice b 24 2)
      metaLen := byte.decode (slice b 26 1)
      hopMetaLen := byte.decode (slice b 27 1)
      rsvd1 := (byte.decode (slice b 28 1), byte.decode (slice b 29 1))
      ndkTstamp := le64.decode (slice b 30 8)
      delay := le64.decode (slice b 38 8)
      seq := le32.decode (slice b 46 4) } := by
  have hdecode : (pair le32 <| pair le32 <| pair le16 <| pair le16 <| pair byte <| pair byte <|
      pair (pair byte byte) <| pair le64 <| pair le64 le32).decode (slice b 14 36) = _ :=
    decode_pair _ _ b 14 18 4 32 36 rfl rfl rfl
  rw [decode_pair _ _ b 18 22 4 28 32 rfl rfl rfl, decode_pair _ _ b 22 24 2 26 28 rfl rfl rfl,
    decode_pair _ _ b 24 26 2 24 26 rfl rfl rfl, decode_pair _ _ b 26 27 1 23 24 rfl rfl rfl,
    decode_pair _ _ b 27 28 1 22 23 rfl rfl rfl, decode_pair _ _ b 28 30 2 20 22 rfl rfl rfl,
    decode_pair _ _ b 30 38 8 12 20 rfl rfl rfl, decode_pair _ _ b 38 46 8 4 12 rfl rfl rfl,
    decode_pair _ _ b 28 29 1 1 2 rfl rfl rfl] at hdecode
  have hsize : intInfluxCodec.size = 36 := rfl
  rw [influxOf, hsize]
  change intInfluxCodec.decode (slice b 14 36) = _
  rw [intInfluxCodec, along_decode, hdecode]
  rfl

def nodeAt (b : List Byte) (k : Nat) : IntMeta := intMetaCodec.decode (slice b (50 + k * 24) 24)

def times (h : IntMeta) : BitVec 64 × BitVec 64 := (h.ingressTstamp, h.egressTstamp)

theorem nodeAt_eq (b : List Byte) (k : Nat) : nodeAt b k =
    { switchId := le32.decode (slice b (50 + k * 24) 4)
      ingressPortId := le16.decode (slice b (54 + k * 24) 2)
      egressPortId := le16.decode (slice b (56 + k * 24) 2)
      ingressTstamp := le64.decode (slice b (58 + k * 24) 8)
      egressTstamp := le64.decode (slice b (66 + k * 24) 8) } := by
  have hdecode : (pair le32 <| pair le16 <| pair le16 <| pair le64 le64).decode
      (slice b (50 + k * 24) 24) = _ :=
    decode_pair _ _ b (50 + k * 24) (54 + k * 24) 4 20 24 rfl rfl (by omega)
  rw [decode_pair _ _ b (54 + k * 24) (56 + k * 24) 2 18 20 rfl rfl (by omega),
    decode_pair _ _ b (56 + k * 24) (58 + k * 24) 2 16 18 rfl rfl (by omega),
    decode_pair _ _ b (58 + k * 24) (66 + k * 24) 8 8 16 rfl rfl (by omega)] at hdecode
  rw [nodeAt, intMetaCodec, along_decode, hdecode]
  rfl

theorem frontNode_regionOf (b : List Byte) : frontNode (regionOf b) = nodeAt b 0 := rfl

theorem nodesIn_eq (n : Nat) (p : List Byte) :
    nodesIn n p = (List.range n).map fun k => frontNode (p.drop (k * 24)) := by
  induction n generalizing p with
  | zero => rfl
  | succ n ih =>
      have hsize : intMetaCodec.size = 24 := rfl
      rw [nodesIn, ih, List.range_succ_eq_map, List.map_cons, List.map_map, Nat.zero_mul, List.drop_zero,
        hsize]
      refine congrArg (frontNode p :: ·) (List.map_congr_left fun k _ => ?_)
      rw [Function.comp_apply, List.drop_drop, Nat.succ_mul, Nat.add_comm]

theorem announced_eq (b : List Byte) :
    announced b = (List.range (metaCntOf (influxOf b))).map (nodeAt b) := by
  rw [announced, nodesIn_eq]
  apply List.map_congr_left
  intro k _
  have hsize : 14 + intInfluxCodec.size = 50 := rfl
  rw [regionOf, List.drop_drop, hsize]
  rfl

theorem slice_recvfrom (frame buffer : List Byte) (i n : Nat) (h : i + n ≤ frame.length)
    (hsize : i + n ≤ pktBufSize) : slice (recvfrom frame buffer) i n = slice frame i n := by
  rw [slice, slice, recvfrom, List.drop_take, List.take_take, Nat.min_eq_left (by omega),
    List.drop_append_of_le_length (by omega), List.take_append_of_le_length]
  rw [List.length_drop]
  omega

theorem influxOf_recvfrom (frame buffer : List Byte) (h : 50 ≤ frame.length) :
    influxOf (recvfrom frame buffer) = influxOf frame := by
  have hsize : 50 ≤ pktBufSize := by decide
  exact congrArg intInfluxCodec.decode (slice_recvfrom frame buffer 14 36 h hsize)

theorem sub_inj (a b d : BitVec 64) (h : a - d = b - d) : a = b := by bv_omega

theorem ntoh64_inj (a b : BitVec 64) (h : ntoh64 a = ntoh64 b) : a = b := by
  rw [ntoh64_eq_swap, ntoh64_eq_swap] at h
  rw [← swap_swap be64 a, h, swap_swap]

section Congruence

variable (st : Globals slots) {h h' : IntInflux} {nodes nodes' : List IntMeta} {first first' : IntMeta}

theorem nodeRecords_congr (t : Timestamps slots) (i : Nat) (tmpEg : BitVec 64)
    (hnodes : nodes.map times = nodes'.map times) :
    nodeRecords t i tmpEg nodes = nodeRecords t i tmpEg nodes' ∧
      lastEgress i tmpEg nodes = lastEgress i tmpEg nodes' ∧ nodes.length = nodes'.length := by
  induction nodes generalizing i tmpEg nodes' with
  | nil =>
      cases nodes' with
      | nil => exact ⟨rfl, rfl, rfl⟩
      | cons node' nodes' => cases hnodes
  | cons node nodes ih =>
      cases nodes' with
      | nil => cases hnodes
      | cons node' nodes' =>
          rw [List.map_cons, List.map_cons, List.cons.injEq, times, times, Prod.mk.injEq] at hnodes
          obtain ⟨⟨hin, heg⟩, hnodes⟩ := hnodes
          obtain ⟨hrec, hlast, hlen⟩ := ih (i + 1) (nextEgress i tmpEg node) hnodes
          have hnext : nextEgress i tmpEg node = nextEgress i tmpEg node' := by
            rw [nextEgress, nextEgress, heg]
          have hnode : nodeRecord t i tmpEg node = nodeRecord t i tmpEg node' := by
            rw [nodeRecord, nodeRecord, hin, heg]
          rw [hnext] at hrec hlast
          refine ⟨?_, ?_, congrArg Nat.succ hlen⟩
          · rw [nodeRecords, nodeRecords, hnode, hnext, hrec]
          · rw [lastEgress, lastEgress, hnext, hlast]

variable (hsrc : h.srcAddr = h'.srcAddr) (hdst : h.dstAddr = h'.dstAddr)
  (hndk : h.ndkTstamp = h'.ndkTstamp) (hseq : h.seq = h'.seq)

include hsrc hdst hndk hseq

theorem stateAfter_congr (hnodes : nodes.map IntMeta.ingressTstamp = nodes'.map IntMeta.ingressTstamp) :
    stateAfter st h nodes = stateAfter st h' nodes' := by
  have hkey : mapKey h = mapKey h' := by rw [mapKey, mapKey, hsrc, hdst]
  have hraw : rawSeq h = rawSeq h' := by rw [rawSeq, rawSeq, hseq]
  have hstamps : stamps nodes (ntoh64 h.ndkTstamp) = stamps nodes' (ntoh64 h'.ndkTstamp) := by
    have hmap := congrArg (List.map ntoh64) hnodes
    rw [List.map_map, List.map_map] at hmap
    rw [stamps, stamps, hndk]
    exact congrArg (· ++ [ntoh64 h'.ndkTstamp]) hmap
  rw [stateAfter, stateAfter, getIntHeaderData_flowMap, getIntHeaderData_flowMap, hkey, hraw, hstamps,
    hndk]

theorem recordOf_congr (hin : h.ingressPortId = h'.ingressPortId) (heg : h.egressPortId = h'.egressPortId)
    (hnodes : nodes.map times = nodes'.map times) (hfirst : times first = times first') :
    recordOf st h nodes first = recordOf st h' nodes' first' := by
  have hheader : (getIntHeaderData default st.flowMap h (mapKey h)).1 =
      (getIntHeaderData default st.flowMap h' (mapKey h')).1 := by
    have hkey : mapKey h = mapKey h' := by rw [mapKey, mapKey, hsrc, hdst]
    rw [hkey, getIntHeaderData, getIntHeaderData, hsrc, hdst, hndk, hseq, hin, heg]
  obtain ⟨hfin, hfeg⟩ := Prod.mk.inj hfirst
  obtain ⟨hrec, hlast, hlen⟩ :=
    nodeRecords_congr st.prevTimestamps 0 (ntoh64 first'.egressTstamp) hnodes
  rw [recordOf, recordOf, hheader, hndk, hfin, hfeg, hrec, hlast, hlen]

end Congruence

end IntPlatform.Collector.Fields
