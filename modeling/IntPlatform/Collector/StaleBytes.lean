import IntPlatform.Collector.Fields
import IntPlatform.Collector.FlowIsolation
import IntPlatform.Collector.Iterations

namespace IntPlatform.Collector.StaleBytes

open Library.Formats Library.SlotTable Records ProcessPacket Outcome Buffers Loop Runs Fields Iterations
open FlowIsolation

/-- A pass exports and leaves what the received bytes and the state give, and
nothing if no frame was received. A fault has no outcome. -/
def OwnBytes (opt : Options) (st : Memory) (e : Event) : Prop :=
  match e.received with
  | some _ => ∀ buffer buffer', buffer.length = pktBufSize → buffer'.length = pktBufSize →
      (iteration opt st buffer e).toOption = (iteration opt st buffer' e).toOption
  | none => ∀ buffer, buffer.length = pktBufSize → ∃ st', iteration opt st buffer e = .ok (none, st') ∧
      st'.flowMap = st.flowMap ∧ st'.prevTimestamps = st.prevTimestamps ∧ st'.pktCnt = st.pktCnt

/-- The bytes of a frame with m nodes that a pass uses: all nodes for a record
that is exported, otherwise just what goes into the state. -/
def needed (opt : Options) (st : Memory) (m : Nat) : Nat :=
  if Sampled opt st then 50 + max 1 m * 24
  else if m = 0 then 50 else 42 + m * 24

/-- The frame has its two length bytes, and these give no number of nodes or all
bytes that the pass uses are there. -/
def Complete (opt : Options) (st : Memory) (frame : List Byte) : Prop :=
  28 ≤ frame.length ∧
    ((influxOf frame).hopMetaLen = 0 ∨ needed opt st (metaCntOf (influxOf frame)) ≤ frame.length)

def Sound (opt : Options) (st : Memory) (e : Event) : Prop :=
  match e.received with
  | some frame => ZeroRate opt ∨ Complete opt st frame
  | none => False

section Slices

theorem lengths_recvfrom (frame buffer : List Byte) (h : 28 ≤ frame.length) :
    (influxOf (recvfrom frame buffer)).hopMetaLen = (influxOf frame).hopMetaLen ∧
      metaCntOf (influxOf (recvfrom frame buffer)) = metaCntOf (influxOf frame) := by
  have hsize : 28 ≤ pktBufSize := by decide
  have hmeta := slice_recvfrom frame buffer 26 1 (by omega) (by omega)
  have hhop := slice_recvfrom frame buffer 27 1 (by omega) (by omega)
  rw [metaCntOf, metaCntOf, influxOf_eq, influxOf_eq, hmeta, hhop]
  exact ⟨rfl, rfl⟩

theorem recvfrom_set (frame buffer : List Byte) (p : Nat) (x : Byte) (h : frame.length ≤ p) :
    recvfrom frame (buffer.set p x) = (recvfrom frame buffer).set p x := by
  rw [recvfrom, recvfrom, List.drop_set, if_neg (by omega), ← List.take_set, List.set_append,
    if_neg (by omega)]

theorem slice_set_of_not (buffer : List Byte) (i n p : Nat) (x : Byte) (h : p < i ∨ i + n ≤ p) :
    slice (buffer.set p x) i n = slice buffer i n := by
  rw [slice, slice, List.drop_set]
  split
  · rfl
  · rw [List.take_set, List.set_eq_of_length_le]
    rw [List.length_take, List.length_drop]
    omega

theorem slice_length (buffer : List Byte) (i n : Nat) (h : i + n ≤ buffer.length) :
    (slice buffer i n).length = n := by
  rw [slice, List.length_take, List.length_drop]
  omega

theorem slice_set_inj (buffer : List Byte) (i n : Nat) (x y : Byte) (h : i + n < buffer.length)
    (heq : slice (buffer.set (i + n) x) i (n + 1) = slice (buffer.set (i + n) y) i (n + 1)) : x = y := by
  have hlen : n < (slice buffer i (n + 1)).length := by
    rw [slice_length buffer i (n + 1) (by omega)]
    exact Nat.lt_succ_self n
  have hset (z : Byte) : slice (buffer.set (i + n) z) i (n + 1) = (slice buffer i (n + 1)).set n z := by
    rw [slice, slice, List.drop_set, if_neg (by omega), List.take_set, Nat.add_sub_cancel_left]
  rw [hset, hset] at heq
  have hget := congrArg (fun l => l[n]?) heq
  rw [List.getElem?_set_self hlen, List.getElem?_set_self hlen] at hget
  exact Option.some.inj hget

theorem decode_inj {α : Type} (c : Codec α) (bs bs' : List Byte) (h : bs.length = c.size)
    (h' : bs'.length = c.size) (heq : c.decode bs = c.decode bs') : bs = bs' := by
  rw [← c.encode_decode bs h, heq, c.encode_decode bs' h']

end Slices

section Agreement

variable (opt : Options) (st : Memory) (b b' : List Byte)

theorem announced_congr (k : Nat) (hk : ∀ i n, i + n ≤ k → slice b i n = slice b' i n)
    (hm : 50 + metaCntOf (influxOf b) * 24 ≤ k) : announced b = announced b' := by
  have hinflux : influxOf b = influxOf b' := congrArg intInfluxCodec.decode (hk 14 36 (by omega))
  rw [announced_eq, announced_eq, ← hinflux]
  apply List.map_congr_left
  intro j hj
  rw [List.mem_range] at hj
  rw [nodeAt, nodeAt, hk _ _ (by omega)]

theorem recorded_congr (k : Nat) (hk : ∀ i n, i + n ≤ k → slice b i n = slice b' i n)
    (hm : 50 + max 1 (metaCntOf (influxOf b)) * 24 ≤ k) : recorded opt st b = recorded opt st b' := by
  have hinflux : influxOf b = influxOf b' := congrArg intInfluxCodec.decode (hk 14 36 (by omega))
  have hnodes := announced_congr b b' k hk (by omega)
  have hfront : frontNode (regionOf b) = frontNode (regionOf b') := by
    rw [frontNode_regionOf, frontNode_regionOf, nodeAt, nodeAt, hk _ _ (by omega)]
  rw [recorded, recorded, hinflux, hnodes, hfront]

theorem recorded_state_congr (k : Nat) (hk : ∀ i n, i + n ≤ k → slice b i n = slice b' i n)
    (hpos : 50 ≤ k) (hm : metaCntOf (influxOf b) ≠ 0 → 42 + metaCntOf (influxOf b) * 24 ≤ k) :
    (recorded opt st b).2 = (recorded opt st b').2 := by
  have hinflux : influxOf b = influxOf b' := congrArg intInfluxCodec.decode (hk 14 36 (by omega))
  have hnodes : (announced b).map IntMeta.ingressTstamp = (announced b').map IntMeta.ingressTstamp := by
    rw [announced_eq, announced_eq, ← hinflux, List.map_map, List.map_map]
    apply List.map_congr_left
    intro j hj
    rw [List.mem_range] at hj
    have hle := hm (by omega)
    rw [Function.comp_apply, Function.comp_apply, nodeAt_eq, nodeAt_eq]
    exact congrArg le64.decode (hk _ _ (by omega))
  change stateAfter st (influxOf b) (announced b) = stateAfter st (influxOf b') (announced b')
  rw [hinflux]
  exact stateAfter_congr st rfl rfl rfl rfl hnodes

end Agreement

theorem map_hopTimestamp_nodeRecords (t : Timestamps reach) (i : Nat) (tmpEg : BitVec 64)
    (nodes : List IntMeta) : (nodeRecords t i tmpEg nodes).map TelemetricMeta.hopTimestamp =
      nodes.map fun h => ntoh64 h.egressTstamp := by
  induction nodes generalizing i tmpEg with
  | nil => rfl
  | cons h nodes ih =>
      rw [nodeRecords, List.map_cons, ih, List.map_cons]
      rfl

theorem rawSeq_inj (h h' : IntInflux) (heq : rawSeq h = rawSeq h') : h.seq = h'.seq := by
  have hle : (32 : Nat) ≤ 64 := by decide
  have hntohl : ntohl h.seq = ntohl h'.seq := by
    rw [← BitVec.toNat_inj, ← BitVec.toNat_setWidth_of_le hle, ← BitVec.toNat_setWidth_of_le hle]
    exact congrArg BitVec.toNat heq
  rw [← swap_swap be32 h.seq]
  exact (congrArg be32.swap hntohl).trans (swap_swap be32 h'.seq)

section LastByte

variable (opt : Options) (st : Memory) (b : List Byte) (hb : b.length = pktBufSize) (x y : Byte)

include hb

theorem last_byte_le64 (i : Nat) (hi : i + 8 ≤ pktBufSize)
    (h : le64.decode (slice (b.set (i + 7) x) i 8) = le64.decode (slice (b.set (i + 7) y) i 8)) :
    x = y := by
  have hlen (z : Byte) : (slice (b.set (i + 7) z) i 8).length = le64.size :=
    slice_length _ i 8 (by rw [List.length_set]; omega)
  exact slice_set_inj b i 7 x y (by omega) (decode_inj le64 _ _ (hlen x) (hlen y) h)

omit hb in
theorem metaCntOf_set (p : Nat) (hp : 28 ≤ p) (z : Byte) :
    (influxOf (b.set p z)).hopMetaLen = (influxOf b).hopMetaLen ∧
      metaCntOf (influxOf (b.set p z)) = metaCntOf (influxOf b) := by
  have hmeta := slice_set_of_not b 26 1 p z (.inr (by omega))
  have hhop := slice_set_of_not b 27 1 p z (.inr (by omega))
  rw [metaCntOf, metaCntOf, influxOf_eq, influxOf_eq, hmeta, hhop]
  exact ⟨rfl, rfl⟩

theorem hopMetaLen_set (z : Byte) : (influxOf (b.set 27 z)).hopMetaLen = z := by
  have hsize : 28 ≤ pktBufSize := by decide
  have hslice : slice (b.set 27 z) 27 1 = [z] := by
    rw [slice, List.drop_set, if_neg (by decide), List.take_set, Nat.sub_self]
    obtain ⟨c, hc⟩ := List.length_eq_one_iff.mp (slice_length b 27 1 (by omega))
    rw [slice] at hc
    rw [hc]
    rfl
  rw [influxOf_eq, hslice]
  rfl

theorem last_byte_egress (q : Nat) (hq : q < reach)
    (h : ntoh64 (nodeAt (b.set (73 + q * 24) x) q).egressTstamp =
      ntoh64 (nodeAt (b.set (73 + q * 24) y) q).egressTstamp) : x = y := by
  have hsize : 74 + reach * 24 ≤ pktBufSize := by decide
  have heg := ntoh64_inj _ _ h
  have hp : 73 + q * 24 = 66 + q * 24 + 7 := by omega
  rw [nodeAt_eq, nodeAt_eq, hp] at heg
  exact last_byte_le64 b hb x y (66 + q * 24) (by omega) heg

theorem last_byte_ingress (q : Nat) (hq : q < reach)
    (h : ntoh64 (nodeAt (b.set (65 + q * 24) x) q).ingressTstamp =
      ntoh64 (nodeAt (b.set (65 + q * 24) y) q).ingressTstamp) : x = y := by
  have hsize : 74 + reach * 24 ≤ pktBufSize := by decide
  have hin := ntoh64_inj _ _ h
  have hp : 65 + q * 24 = 58 + q * 24 + 7 := by omega
  rw [nodeAt_eq, nodeAt_eq, hp] at hin
  exact last_byte_le64 b hb x y (58 + q * 24) (by omega) hin

theorem last_byte_record (m : Nat) (hm : metaCntOf (influxOf b) = m) (hlt : m < reach)
    (h : (recorded opt st (b.set (49 + max 1 m * 24) x)).1 =
      (recorded opt st (b.set (49 + max 1 m * 24) y)).1) : x = y := by
  have hcnt (z : Byte) := (metaCntOf_set b (49 + max 1 m * 24) (by omega) z).2
  have hmeta := congrArg TelemetricHdr.nodeMeta h
  rw [recorded, recorded, cutTimestamps_nodeMeta, cutTimestamps_nodeMeta, recordOf, recordOf] at hmeta
  dsimp only at hmeta
  rw [announced_eq, announced_eq, hcnt x, hcnt y, hm, frontNode_regionOf, frontNode_regionOf] at hmeta
  cases m with
  | zero =>
      have hndk (z : Byte) : (influxOf (b.set (49 + max 1 0 * 24) z)).ndkTstamp =
          (influxOf b).ndkTstamp := by
        rw [influxOf_eq, influxOf_eq, slice_set_of_not b 30 8 _ z (.inr (by omega))]
      have hlink := congrArg TelemetricMeta.linkDelay (List.singleton_inj.mp hmeta)
      rw [hndk x, hndk y] at hlink
      apply last_byte_egress b hb x y 0 (by decide)
      exact sub_inj _ _ _ hlink
  | succ q =>
      have hmax : 49 + max 1 (q + 1) * 24 = 73 + q * 24 := by omega
      rw [hmax] at hmeta
      obtain ⟨hrecords, -⟩ := List.append_singleton_inj.mp hmeta
      have hstamps := congrArg (List.map TelemetricMeta.hopTimestamp) hrecords
      rw [map_hopTimestamp_nodeRecords, map_hopTimestamp_nodeRecords, List.map_map, List.map_map] at hstamps
      have hlast := List.map_inj_left.mp hstamps q (List.mem_range.mpr (Nat.lt_succ_self q))
      exact last_byte_egress b hb x y q (by omega) hlast

theorem last_byte_prevTimestamps (q : Nat) (hm : metaCntOf (influxOf b) = q + 1) (hlt : q + 1 < reach)
    (h : (recorded opt st (b.set (65 + q * 24) x)).2.prevTimestamps =
      (recorded opt st (b.set (65 + q * 24) y)).2.prevTimestamps) : x = y := by
  have hcnt (z : Byte) := (metaCntOf_set b (65 + q * 24) (by omega) z).2
  have hentry (z : Byte) : entry (recorded opt st (b.set (65 + q * 24) z)).2.prevTimestamps q =
      ntoh64 (nodeAt (b.set (65 + q * 24) z) q).ingressTstamp := by
    have hlen : (announced (b.set (65 + q * 24) z)).length = q + 1 := by
      rw [announced_length, hcnt z, hm]
    have hget : (announced (b.set (65 + q * 24) z))[q]? = some (nodeAt (b.set (65 + q * 24) z) q) := by
      rw [announced_eq, hcnt z, hm, List.getElem?_map, List.getElem?_range (Nat.lt_succ_self q)]
      rfl
    refine (entry_overwrite st.prevTimestamps _ q ?_).trans ?_
    · rw [stamps, List.length_append, List.length_map, hlen]
      exact hlt
    · rw [stamps, List.getElem?_append_left (by rw [List.length_map, hlen]; omega), List.getElem?_map, hget]
      rfl
  apply last_byte_ingress b hb x y q (by omega)
  rw [← hentry x, ← hentry y, h]

/-- The flow map shows the last byte of the sequence number, as long as the
number is not zero. -/
theorem last_byte_flowMap (hx : x ≠ 0) (hy : y ≠ 0)
    (h : (recorded opt st (b.set 49 x)).2.flowMap = (recorded opt st (b.set 49 y)).2.flowMap) : x = y := by
  have hsize : 50 ≤ pktBufSize := by decide
  have hlen (z : Byte) : (slice (b.set 49 z) 46 4).length = le32.size :=
    slice_length _ 46 4 (by rw [List.length_set]; omega)
  have hseq (z : Byte) : (influxOf (b.set 49 z)).seq = le32.decode (slice (b.set 49 z) 46 4) := by
    rw [influxOf_eq]
  have hraw (z : Byte) (hz : z ≠ 0) : rawSeq (influxOf (b.set 49 z)) ≠ 0 := by
    intro hzero
    have hswap : (ntohl 0).setWidth 64 = (0 : BitVec 64) := by decide
    have hnone : rawSeq { influxOf (b.set 49 z) with seq := 0 } = 0 := hswap
    have hdecode := rawSeq_inj _ _ (hzero.trans hnone.symm)
    have hzeros : le32.decode [0, 0, 0, 0] = 0 := by decide
    rw [hseq z] at hdecode
    have hbytes := decode_inj le32 _ _ (hlen z) rfl (hdecode.trans hzeros.symm)
    have hget := congrArg (fun l => l[3]?) hbytes
    rw [slice, List.drop_set, if_neg (by decide), List.take_set, List.getElem?_set_self] at hget
    · exact hz (Option.some.inj hget)
    · rw [List.length_take, List.length_drop]
      omega
  have hkey : mapKey (influxOf (b.set 49 x)) = mapKey (influxOf (b.set 49 y)) := by
    have hsrc (z : Byte) := slice_set_of_not b 14 4 49 z (.inr (by omega))
    have hdst (z : Byte) := slice_set_of_not b 18 4 49 z (.inr (by omega))
    rw [mapKey, mapKey, influxOf_eq, influxOf_eq, hsrc x, hsrc y, hdst x, hdst y]
  rw [recorded_flowMap, recorded_flowMap, hkey] at h
  have hmap := congrFun h (mapKey (influxOf (b.set 49 y)))
  rw [Function.update_self, Function.update_self] at hmap
  have hafter := congrArg MetaData.seq hmap
  dsimp only at hafter
  rw [seqAfter, seqAfter, if_neg (hraw x hx), if_neg (hraw y hy)] at hafter
  have hbytes := rawSeq_inj _ _ hafter
  rw [hseq x, hseq y] at hbytes
  exact slice_set_inj b 46 3 x y (by omega) (decode_inj le32 _ _ (hlen x) (hlen y) hbytes)

end LastByte

section Pass

variable (opt : Options) (st : Memory) (ret : BitVec 32)

variable (frame : List Byte)

theorem ownBytes_of_complete (hc : Complete opt st frame) : OwnBytes opt st ⟨some frame, ret⟩ := by
  obtain ⟨hlen, hcases⟩ := hc
  have hsize : 50 + reach * 24 ≤ pktBufSize := by decide
  have hfits := metaCntOf_lt_reach (influxOf frame)
  intro b b' hb hb'
  obtain ⟨hhop, hcnt⟩ := lengths_recvfrom frame b hlen
  obtain ⟨hhop', -⟩ := lengths_recvfrom frame b' hlen
  by_cases hq : (influxOf frame).hopMetaLen ≠ 0 ∧ ¬ ZeroRate opt
  · obtain ⟨hdiv, hrate⟩ := hq
    have hneed : needed opt st (metaCntOf (influxOf frame)) ≤ frame.length := hcases.resolve_left hdiv
    have hsame (i n k : Nat) (hk : k ≤ frame.length) (hs : k ≤ pktBufSize) (hi : i + n ≤ k) :
        slice (recvfrom frame b) i n = slice (recvfrom frame b') i n := by
      rw [slice_recvfrom frame b i n (by omega) (by omega),
        slice_recvfrom frame b' i n (by omega) (by omega)]
    have hpassed : passed opt ret (recorded opt st (recvfrom frame b)) =
        passed opt ret (recorded opt st (recvfrom frame b')) := by
      by_cases hs : Sampled opt st
      · rw [needed, if_pos hs] at hneed
        rw [recorded_congr opt st _ _ (50 + max 1 (metaCntOf (influxOf frame)) * 24)
          (fun i n => hsame i n _ hneed (by omega))
          (Nat.le_of_eq (congrArg (fun m => 50 + max 1 m * 24) hcnt))]
      · rw [needed, if_neg hs] at hneed
        have hstate := recorded_state_congr opt st (recvfrom frame b) (recvfrom frame b')
          (max 50 (42 + metaCntOf (influxOf frame) * 24))
          (fun i n => hsame i n _ (by split at hneed <;> omega) (by omega)) (by omega) (by omega)
        have hs' : ¬ Sampled opt (recorded opt st (recvfrom frame b)).2 := hs
        have hs'' : ¬ Sampled opt (recorded opt st (recvfrom frame b')).2 := hs
        rw [passed, passed, if_neg hs', if_neg hs'', hstate]
    rw [iteration_ok opt st b ⟨some frame, ret⟩ hb (hhop.trans_ne hdiv) hrate,
      iteration_ok opt st b' ⟨some frame, ret⟩ hb' (hhop'.trans_ne hdiv) hrate]
    exact congrArg some hpassed
  · rw [iteration_fault opt st b ⟨some frame, ret⟩ hb (mt (And.imp_left hhop.symm.trans_ne) hq),
      iteration_fault opt st b' ⟨some frame, ret⟩ hb' (mt (And.imp_left hhop'.symm.trans_ne) hq)]

def onZeros : List Byte := recvfrom frame (List.replicate pktBufSize 0)

theorem onZeros_length : (onZeros frame).length = pktBufSize :=
  recvfrom_length frame _ List.length_replicate

theorem zeros_set_length (p : Nat) (z : Byte) :
    ((List.replicate pktBufSize (0 : Byte)).set p z).length = pktBufSize := by
  rw [List.length_set, List.length_replicate]

/-- The divisor has to be received: with 0 the pass faults, with 255 it does not. -/
theorem lengths_received (hrate : ¬ ZeroRate opt) (h : OwnBytes opt st ⟨some frame, ret⟩) :
    28 ≤ frame.length := by
  by_contra hlen
  have hp : frame.length ≤ 27 := by omega
  have hset (z : Byte) : recvfrom frame ((List.replicate pktBufSize 0).set 27 z) = (onZeros frame).set 27 z :=
    recvfrom_set frame _ 27 z hp
  have hhop (z : Byte) : (influxOf (recvfrom frame ((List.replicate pktBufSize 0).set 27 z))).hopMetaLen = z := by
    rw [hset]
    exact hopMetaLen_set (onZeros frame) (onZeros_length frame) z
  have hown := h _ _ (zeros_set_length 27 0) (zeros_set_length 27 255)
  rw [iteration_fault opt st _ ⟨some frame, ret⟩ (zeros_set_length 27 0) fun hq => hq.1 (hhop 0),
    iteration_ok opt st _ ⟨some frame, ret⟩ (zeros_set_length 27 255)
      ((hhop 255).trans_ne (by decide)) hrate] at hown
  cases hown

theorem passed_set (hlen : 28 ≤ frame.length) (hrate : ¬ ZeroRate opt)
    (hdiv : (influxOf frame).hopMetaLen ≠ 0) (h : OwnBytes opt st ⟨some frame, ret⟩) (p : Nat)
    (hp : frame.length ≤ p) (x y : Byte) :
    passed opt ret (recorded opt st ((onZeros frame).set p x)) =
      passed opt ret (recorded opt st ((onZeros frame).set p y)) := by
  have hok (z : Byte) : iteration opt st ((List.replicate pktBufSize 0).set p z) ⟨some frame, ret⟩ =
      .ok (passed opt ret (recorded opt st ((onZeros frame).set p z))) := by
    have hset : recvfrom frame ((List.replicate pktBufSize 0).set p z) = (onZeros frame).set p z :=
      recvfrom_set frame _ p z hp
    have hhop := (lengths_recvfrom frame ((List.replicate pktBufSize 0).set p z) hlen).1
    rw [iteration_ok opt st _ ⟨some frame, ret⟩ (zeros_set_length p z) (hhop.trans_ne hdiv) hrate]
    exact congrArg (fun b => Except.ok (passed opt ret (recorded opt st b))) hset
  have hown := h _ _ (zeros_set_length p x) (zeros_set_length p y)
  rw [hok, hok] at hown
  exact Option.some.inj hown

theorem complete_of_ownBytes (hrate : ¬ ZeroRate opt) (h : OwnBytes opt st ⟨some frame, ret⟩) :
    Complete opt st frame := by
  have hlen := lengths_received opt st ret frame hrate h
  refine ⟨hlen, ?_⟩
  by_contra hn
  obtain ⟨hz, hneed⟩ := not_or.mp hn
  rw [Nat.not_le] at hneed
  have hlt := metaCntOf_lt_reach (influxOf frame)
  have hbase := onZeros_length frame
  obtain ⟨-, hcnt⟩ := lengths_recvfrom frame (List.replicate pktBufSize 0) hlen
  have hpass (p : Nat) (hp : frame.length ≤ p) :=
    passed_set opt st ret frame hlen hrate hz h p hp 1 2
  have hne : (1 : Byte) ≠ 2 := by decide
  rw [needed] at hneed
  by_cases hs : Sampled opt st
  · rw [if_pos hs] at hneed
    have hfst := congrArg Prod.fst (hpass (49 + max 1 (metaCntOf (influxOf frame)) * 24) (by omega))
    rw [passed, passed, if_pos (show Sampled opt (recorded opt st _).2 from hs),
      if_pos (show Sampled opt (recorded opt st _).2 from hs)] at hfst
    exact hne (last_byte_record opt st _ hbase 1 2 _ hcnt hlt (Option.some.inj hfst))
  · rw [if_neg hs] at hneed
    cases hm : metaCntOf (influxOf frame) with
    | zero =>
        rw [hm, if_pos rfl] at hneed
        have hflow := congrArg (fun pass => pass.2.flowMap) (hpass 49 (by omega))
        rw [(passed_state opt ret _).1, (passed_state opt ret _).1] at hflow
        exact hne (last_byte_flowMap opt st _ hbase 1 2 (by decide) (by decide) hflow)
    | succ q =>
        rw [hm, if_neg (Nat.succ_ne_zero q)] at hneed
        have hprev := congrArg (fun pass => pass.2.prevTimestamps) (hpass (65 + q * 24) (by omega))
        rw [(passed_state opt ret _).2.1, (passed_state opt ret _).2.1] at hprev
        exact hne (last_byte_prevTimestamps opt st _ hbase 1 2 q (hcnt.trans hm) (by omega) hprev)

theorem not_ownBytes_failed : ¬ OwnBytes opt st ⟨none, ret⟩ := by
  intro h
  obtain ⟨st', hok, -, -, hcnt⟩ := h (List.replicate pktBufSize 0) List.length_replicate
  by_cases hq : (influxOf (recvfrom [] (List.replicate pktBufSize 0))).hopMetaLen ≠ 0 ∧ ¬ ZeroRate opt
  · rw [iteration_ok opt st _ ⟨none, ret⟩ List.length_replicate hq.1 hq.2] at hok
    have hpassed := (passed_state opt ret (recorded opt st (recvfrom [] (List.replicate pktBufSize 0)))).2.2
    have hstate : (recorded opt st (recvfrom [] (List.replicate pktBufSize 0))).2.pktCnt = st.pktCnt := rfl
    have hst' := Except.ok.inj hok
    rw [← hcnt, ← congrArg (fun pass => pass.2.pktCnt) hst'] at hstate
    have hsame := hpassed.symm.trans hstate.symm
    bv_omega
  · rw [iteration_fault opt st _ ⟨none, ret⟩ List.length_replicate hq] at hok
    cases hok

end Pass

theorem ownBytes_iff (opt : Options) (st : Memory) (e : Event) : OwnBytes opt st e ↔ Sound opt st e := by
  obtain ⟨received, ret⟩ := e
  cases received with
  | none => exact iff_of_false (not_ownBytes_failed opt st ret) id
  | some frame =>
      by_cases hrate : ZeroRate opt
      · refine iff_of_true ?_ (.inl hrate)
        intro b b' hb hb'
        rw [iteration_fault opt st b ⟨some frame, ret⟩ hb fun hq => hq.2 hrate,
          iteration_fault opt st b' ⟨some frame, ret⟩ hb' fun hq => hq.2 hrate]
      · constructor
        · intro h
          exact .inr (complete_of_ownBytes opt st ret frame hrate h)
        · intro h
          exact ownBytes_of_complete opt st ret frame (h.resolve_left hrate)

def visited (opt : Options) (st : Memory) (buffer : List Byte) : List Event → List (Memory × Event)
  | [] => []
  | e :: es => (st, e) ::
      match iteration opt st buffer e with
      | .error _ => []
      | .ok pass => visited opt pass.2 (recvfrom e.frame buffer) es

theorem passes_sound (opt : Options) (st : Memory) (buffer buffer' : List Byte) (events : List Event)
    (h : buffer.length = pktBufSize) (h' : buffer'.length = pktBufSize)
    (hs : ∀ p ∈ visited opt st buffer events, Sound opt p.1 p.2) :
    (passes opt st buffer events).1 = (passes opt st buffer' events).1 := by
  induction events generalizing st buffer buffer' with
  | nil => rfl
  | cons e events ih =>
      rw [visited, List.forall_mem_cons] at hs
      obtain ⟨hsound, hrest⟩ := hs
      have hlen := recvfrom_length e.frame buffer h
      have hlen' := recvfrom_length e.frame buffer' h'
      obtain ⟨received, ret⟩ := e
      cases received with
      | none => exact hsound.elim
      | some frame =>
          have hown := (ownBytes_iff opt st ⟨some frame, ret⟩).mpr hsound buffer buffer' h h'
          rw [passes, passes]
          cases hpass : iteration opt st buffer ⟨some frame, ret⟩ with
          | error fault =>
              cases hpass' : iteration opt st buffer' ⟨some frame, ret⟩ with
              | error fault' => rfl
              | ok pass' =>
                  rw [hpass, hpass'] at hown
                  cases hown
          | ok pass =>
              cases hpass' : iteration opt st buffer' ⟨some frame, ret⟩ with
              | error fault' =>
                  rw [hpass, hpass'] at hown
                  cases hown
              | ok pass' =>
                  rw [hpass, hpass'] at hown
                  obtain rfl : pass = pass' := Option.some.inj hown
                  rw [hpass] at hrest
                  exact congrArg (pass :: ·) (ih pass.2 _ _ hlen hlen' hrest)

/-- Every pass of a run stands on its own bytes exactly when all of its frames
are complete and none fails to arrive; then the whole run does not depend on the
buffer it began with. -/
theorem own_bytes_iff (opt : Options) (st : Memory) (buffer : List Byte) (h : buffer.length = pktBufSize)
    (events : List Event) :
    ((∀ p ∈ visited opt st buffer events, OwnBytes opt p.1 p.2) ↔
      ∀ p ∈ visited opt st buffer events, Sound opt p.1 p.2) ∧
    ((∀ p ∈ visited opt st buffer events, Sound opt p.1 p.2) →
      ∀ buffer', buffer'.length = pktBufSize →
        (passes opt st buffer events).1 = (passes opt st buffer' events).1) := by
  refine ⟨?_, ?_⟩
  · apply forall_congr'
    intro p
    rw [ownBytes_iff]
  · intro hs buffer' h'
    exact passes_sound opt st buffer buffer' events h h' hs

def completeEvent : Event := ⟨some ((sampleReport 5000 100).frame ++ List.replicate 24 0), 0⟩

theorem own_bytes_sample :
    (∀ p ∈ visited ⟨1, 0, 1, 1⟩ Memory.initial (List.replicate pktBufSize 0) [completeEvent],
        OwnBytes ⟨1, 0, 1, 1⟩ p.1 p.2) ∧
      ∀ buffer', buffer'.length = pktBufSize →
        (passes ⟨1, 0, 1, 1⟩ Memory.initial (List.replicate pktBufSize 0) [completeEvent]).1 =
          (passes ⟨1, 0, 1, 1⟩ Memory.initial buffer' [completeEvent]).1 := by
  obtain ⟨hown, hrun⟩ := own_bytes_iff ⟨1, 0, 1, 1⟩ Memory.initial (List.replicate pktBufSize 0)
    List.length_replicate [completeEvent]
  have hsound : ∀ p ∈ visited ⟨1, 0, 1, 1⟩ Memory.initial (List.replicate pktBufSize 0) [completeEvent],
      Sound ⟨1, 0, 1, 1⟩ p.1 p.2 := by
    have hlen : ((sampleReport 5000 100).frame ++ List.replicate 24 (0 : Byte)).length = 74 := rfl
    have hcnt : metaCntOf (influxOf ((sampleReport 5000 100).frame ++ List.replicate 24 0)) = 0 := by
      decide
    rw [visited, List.forall_mem_cons]
    refine ⟨.inr ⟨by rw [hlen]; decide, .inr ?_⟩, ?_⟩
    · rw [hcnt, hlen]
      decide
    · cases iteration ⟨1, 0, 1, 1⟩ Memory.initial (List.replicate pktBufSize 0) completeEvent with
      | error fault => exact List.forall_mem_nil _
      | ok pass => exact List.forall_mem_nil _
  exact ⟨hown.mpr hsound, hrun hsound⟩

/-- A report without nodes takes its origin from older bytes, and a failed
receive repeats a packet. -/
theorem stale_bytes_used : ¬ OwnBytes ⟨1, 0, 1, 1⟩ Memory.initial ⟨some (sampleReport 5000 100).frame, 0⟩ ∧
    ¬ OwnBytes ⟨1, 0, 1, 1⟩ Memory.initial ⟨none, 0⟩ := by
  refine ⟨?_, not_ownBytes_failed _ _ _⟩
  rw [ownBytes_iff]
  have hrate : ¬ ZeroRate ⟨1, 0, 1, 1⟩ := by decide
  have hlen : (sampleReport 5000 100).frame.length = 50 := rfl
  have hhop : (influxOf (sampleReport 5000 100).frame).hopMetaLen = 6 := by decide
  have hcnt : metaCntOf (influxOf (sampleReport 5000 100).frame) = 0 := by decide
  rintro (hz | ⟨-, hz | hneed⟩)
  · exact hrate hz
  · rw [hhop] at hz
    revert hz
    decide
  · rw [hcnt, hlen] at hneed
    revert hneed
    decide

end IntPlatform.Collector.StaleBytes
