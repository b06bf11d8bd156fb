import IntPlatform.Library.SlotTable
import IntPlatform.Collector.ProcessPacket

namespace IntPlatform.Collector.Outcome

open Library.Formats Library.SlotTable Records ProcessPacket

variable {slots : Nat}

def nextEgress (i : Nat) (tmpEg : BitVec 64) (h : IntMeta) : BitVec 64 :=
  if i = 0 then tmpEg else ntoh64 h.egressTstamp

def nodeRecord (t : Timestamps slots) (i : Nat) (tmpEg : BitVec 64) (h : IntMeta) : TelemetricMeta where
  linkDelay := if i = 0 then 0 else tmpEg - ntoh64 h.ingressTstamp
  hopDelay := ntoh64 h.egressTstamp - ntoh64 h.ingressTstamp
  hopJitter := ntoh64 h.ingressTstamp - entry t i
  hopIndex := BitVec.ofNat 8 i
  hopTimestamp := ntoh64 h.egressTstamp

def nodeRecords (t : Timestamps slots) : Nat → BitVec 64 → List IntMeta → List TelemetricMeta
  | _, _, [] => []
  | i, tmpEg, h :: nodes => nodeRecord t i tmpEg h :: nodeRecords t (i + 1) (nextEgress i tmpEg h) nodes

def lastEgress : Nat → BitVec 64 → List IntMeta → BitVec 64
  | _, tmpEg, [] => tmpEg
  | i, tmpEg, h :: nodes => lastEgress (i + 1) (nextEgress i tmpEg h) nodes

def sinkRecord (t : Timestamps slots) (i : Nat) (tmpEg dstTs : BitVec 64) : TelemetricMeta where
  linkDelay := tmpEg - dstTs
  hopDelay := 0
  hopJitter := dstTs - entry t i
  hopIndex := BitVec.ofNat 8 i
  hopTimestamp := dstTs

def stamps (nodes : List IntMeta) (dstTs : BitVec 64) : List (BitVec 64) :=
  nodes.map (fun h => ntoh64 h.ingressTstamp) ++ [dstTs]

theorem exchange_of_lt (t : Timestamps slots) (i : Nat) (ts : BitVec 64) (h : i < slots) :
    exchange t i ts = .ok (entry t i, overwrite t i [ts]) := by
  rw [exchange, dif_pos h, entry, dif_pos h, ← overwrite_cons t i h ts [], overwrite_nil]

theorem nodeIteration_of_lt (i : Nat) (h : IntMeta) (s : NodeLoop slots) (hi : i < slots) :
    nodeIteration i h s = .ok ⟨nextEgress i s.tmpEgTimestamp h,
      overwrite s.prevTimestamps i [ntoh64 h.ingressTstamp],
      s.nodeMeta ++ [nodeRecord s.prevTimestamps i s.tmpEgTimestamp h]⟩ := by
  rw [nodeIteration, exchange_of_lt _ _ _ hi]
  by_cases h0 : i = 0
  · simp only [h0, ↓reduceIte, nextEgress, nodeRecord]
    rfl
  · simp only [h0, ↓reduceIte, nextEgress, nodeRecord]
    rfl

theorem nodeRecords_overwrite (t : Timestamps slots) (j : Nat) (x : BitVec 64) (i : Nat) (tmpEg : BitVec 64)
    (nodes : List IntMeta) (h : j < i) :
    nodeRecords (overwrite t j [x]) i tmpEg nodes = nodeRecords t i tmpEg nodes := by
  induction nodes generalizing i tmpEg with
  | nil => rfl
  | cons node nodes ih =>
      have he : entry (overwrite t j [x]) i = entry t i := entry_overwrite_of_le t j i [x] h
      rw [nodeRecords, nodeRecords, ih _ _ (by omega), nodeRecord, nodeRecord, he]

theorem nodeLoop_nodes (nodes : List IntMeta) (i : Nat) (rest : List Byte) (s : NodeLoop slots)
    (hi : i + nodes.length ≤ slots) :
    nodeLoop nodes.length i (nodes.flatMap intMetaCodec.encode ++ rest) s =
      .ok ⟨lastEgress i s.tmpEgTimestamp nodes,
        overwrite s.prevTimestamps i (nodes.map fun h => ntoh64 h.ingressTstamp),
        s.nodeMeta ++ nodeRecords s.prevTimestamps i s.tmpEgTimestamp nodes⟩ := by
  induction nodes generalizing i s with
  | nil =>
      rw [nodeRecords, List.append_nil, List.map_nil, overwrite_nil]
      rfl
  | cons h nodes ih =>
      rw [List.length_cons] at hi
      rw [List.flatMap_cons, List.append_assoc, List.length_cons, nodeLoop, deref_encode]
      simp only [ok_bind]
      rw [nodeIteration_of_lt i h s (by omega)]
      simp only [ok_bind]
      rw [ih (i + 1) _ (by omega)]
      dsimp only
      have ht : overwrite (overwrite s.prevTimestamps i [ntoh64 h.ingressTstamp]) (i + 1)
          (nodes.map fun h => ntoh64 h.ingressTstamp) =
          overwrite s.prevTimestamps i ((h :: nodes).map fun h => ntoh64 h.ingressTstamp) :=
        overwrite_append s.prevTimestamps i [ntoh64 h.ingressTstamp] _
      rw [ht, nodeRecords_overwrite _ _ _ _ _ _ (Nat.lt_succ_self i), List.append_assoc]
      rfl

/-- The node at the front of some bytes. Without nodes it is read from what
follows the report header. -/
def frontNode (p : List Byte) : IntMeta := intMetaCodec.decode (p.take intMetaCodec.size)

theorem deref_frontNode (p : List Byte) (h : intMetaCodec.size ≤ p.length) :
    deref intMetaCodec p = .ok (frontNode p, p.drop intMetaCodec.size) := by
  rw [deref, Codec.read, if_neg (by omega)]
  rfl

theorem frontNode_cons (first : IntMeta) (nodes : List IntMeta) (rest : List Byte) :
    frontNode ((first :: nodes).flatMap intMetaCodec.encode ++ rest) = first := by
  rw [frontNode, List.flatMap_cons, List.append_assoc, List.take_left' (intMetaCodec.encode_length _),
    intMetaCodec.decode_encode]

theorem getIntNodeData_nodes (tmpHdr : TelemetricHdr) (t : Timestamps slots) (nodes : List IntMeta)
    (rest : List Byte) (metaCnt : BitVec 8) (hcnt : metaCnt.toNat = nodes.length)
    (hlt : nodes.length < slots)
    (hfront : intMetaCodec.size ≤ (nodes.flatMap intMetaCodec.encode ++ rest).length) (first : IntMeta)
    (hfirst : first = frontNode (nodes.flatMap intMetaCodec.encode ++ rest)) :
    getIntNodeData tmpHdr t (nodes.flatMap intMetaCodec.encode ++ rest) metaCnt =
      .ok ({ tmpHdr with
          origTs := ntoh64 first.ingressTstamp
          delay := tmpHdr.dstTs - ntoh64 first.ingressTstamp
          nodeMeta := tmpHdr.nodeMeta ++ (nodeRecords t 0 (ntoh64 first.egressTstamp) nodes ++
            [sinkRecord t nodes.length (lastEgress 0 (ntoh64 first.egressTstamp) nodes) tmpHdr.dstTs]) },
        overwrite t 0 (stamps nodes tmpHdr.dstTs)) := by
  have hs := nodeLoop_nodes nodes 0 rest ⟨ntoh64 first.egressTstamp, t, tmpHdr.nodeMeta⟩ (by omega)
  have hm : metaCnt = BitVec.ofNat 8 nodes.length := by
    rw [← hcnt, BitVec.ofNat_toNat, BitVec.setWidth_eq]
  have hl : (nodes.map fun h => ntoh64 h.ingressTstamp).length = nodes.length := List.length_map _
  have he : entry (overwrite t 0 (nodes.map fun h => ntoh64 h.ingressTstamp)) nodes.length =
      entry t nodes.length := entry_overwrite_of_le t 0 _ _ (by omega)
  have ht := overwrite_append t 0 (nodes.map fun h => ntoh64 h.ingressTstamp) [tmpHdr.dstTs]
  rw [hl, Nat.zero_add] at ht
  rw [getIntNodeData, deref_frontNode _ hfront, ← hfirst, hcnt]
  simp only [ok_bind, hs, exchange_of_lt _ _ _ hlt, he, ht, List.append_assoc]
  rw [hm]
  rfl

/-- The key of the flow map: the bytes of both addresses, read as one number. -/
def mapKey (h : IntInflux) : BitVec 64 := h.dstAddr ++ h.srcAddr

theorem deref_mapKey (h : IntInflux) (rest : List Byte) :
    ∃ p, deref le64 (intInfluxCodec.encode h ++ rest) = .ok (mapKey h, p) := by
  have hk : le64.encode (mapKey h) = le32.encode h.srcAddr ++ le32.encode h.dstAddr := by
    change (be64.encode (h.dstAddr ++ h.srcAddr)).reverse = _
    rw [be64, glue_encode, List.reverse_append]
    rfl
  have he : ∃ more, intInfluxCodec.encode h = le64.encode (mapKey h) ++ more := by
    rw [hk, intInfluxCodec]
    simp only [along, pair, Equiv.coe_fn_symm_mk]
    exact ⟨_, (List.append_assoc _ _ _).symm⟩
  obtain ⟨more, he⟩ := he
  rw [he, List.append_assoc]
  exact ⟨_, deref_encode le64 _ _⟩

section Header

variable (m : BitVec 64 → MetaData) (h : IntInflux) (key : BitVec 64)

def rawSeq (h : IntInflux) : BitVec 64 := (ntohl h.seq).setWidth 64

def seqAfter (old : MetaData) (raw : BitVec 64) : BitVec 64 := if raw = 0 then old.seq + 1 else raw

theorem getIntHeaderData_dstTs :
    (getIntHeaderData default m h key).1.dstTs = ntoh64 h.ndkTstamp := by
  dsimp only [getIntHeaderData]
  split <;> rfl

theorem getIntHeaderData_nodeMeta : (getIntHeaderData default m h key).1.nodeMeta = [] := by
  dsimp only [getIntHeaderData]
  split <;> rfl

theorem getIntHeaderData_flowMap :
    (getIntHeaderData default m h key).2 =
      Function.update m key ⟨seqAfter (m key) (rawSeq h), ntoh64 h.ndkTstamp⟩ := by
  dsimp only [getIntHeaderData, seqAfter, rawSeq]
  split <;> rfl

end Header

def recordOf (st : Globals slots) (h : IntInflux) (nodes : List IntMeta) (first : IntMeta) : TelemetricHdr :=
  { (getIntHeaderData default st.flowMap h (mapKey h)).1 with
    origTs := ntoh64 first.ingressTstamp
    dstTs := ntoh64 h.ndkTstamp
    delay := ntoh64 h.ndkTstamp - ntoh64 first.ingressTstamp
    nodeMeta := nodeRecords st.prevTimestamps 0 (ntoh64 first.egressTstamp) nodes ++
      [sinkRecord st.prevTimestamps nodes.length (lastEgress 0 (ntoh64 first.egressTstamp) nodes)
        (ntoh64 h.ndkTstamp)] }

section Record

variable (st : Globals slots) (h : IntInflux) (nodes : List IntMeta) (first : IntMeta)

theorem recordOf_srcIp : (recordOf st h nodes first).srcIp = inetNtop h.srcAddr := by
  dsimp only [recordOf, getIntHeaderData]
  split <;> rfl

theorem recordOf_dstIp : (recordOf st h nodes first).dstIp = inetNtop h.dstAddr := by
  dsimp only [recordOf, getIntHeaderData]
  split <;> rfl

theorem recordOf_srcPort : (recordOf st h nodes first).srcPort = ntohs h.ingressPortId := by
  dsimp only [recordOf, getIntHeaderData]
  split <;> rfl

theorem recordOf_dstPort : (recordOf st h nodes first).dstPort = ntohs h.egressPortId := by
  dsimp only [recordOf, getIntHeaderData]
  split <;> rfl

theorem recordOf_dstTs : (recordOf st h nodes first).dstTs = ntoh64 h.ndkTstamp := rfl

theorem recordOf_protocol :
    (recordOf st h nodes first).protocol = if rawSeq h = 0 then 17 else 6 := by
  by_cases hz : (ntohl h.seq).setWidth 64 = (0 : BitVec 64)
  · rw [rawSeq, if_pos hz, recordOf, getIntHeaderData, if_pos hz]
  · rw [rawSeq, if_neg hz, recordOf, getIntHeaderData, if_neg hz]

theorem recordOf_seqNum :
    (recordOf st h nodes first).seqNum = seqAfter (st.flowMap (mapKey h)) (rawSeq h) := by
  dsimp only [recordOf, getIntHeaderData, rawSeq, seqAfter]
  split <;> rfl

theorem recordOf_reordering :
    (recordOf st h nodes first).reordering =
      if rawSeq h = 0 then 0 else rawSeq h - (st.flowMap (mapKey h)).seq - 1 := by
  by_cases hz : (ntohl h.seq).setWidth 64 = (0 : BitVec 64)
  · rw [rawSeq, if_pos hz, recordOf, getIntHeaderData, if_pos hz]
  · rw [rawSeq, if_neg hz, recordOf, getIntHeaderData, if_neg hz]

theorem recordOf_sinkJitter :
    (recordOf st h nodes first).sinkJitter = ntoh64 h.ndkTstamp - (st.flowMap (mapKey h)).prevDstTs := by
  dsimp only [recordOf, getIntHeaderData]
  split <;> rfl

end Record

def stateAfter (st : Globals slots) (h : IntInflux) (nodes : List IntMeta) : Globals slots :=
  { st with
    flowMap := (getIntHeaderData default st.flowMap h (mapKey h)).2
    prevTimestamps := overwrite st.prevTimestamps 0 (stamps nodes (ntoh64 h.ndkTstamp)) }

/-- The exact result of processing a report. -/
theorem processPacket_report (opt : Options) (st : Globals slots) (eth rest : List Byte) (h : IntInflux)
    (nodes : List IntMeta) (heth : eth.length = 14) (hlen : h.hopMetaLen ≠ 0)
    (hcnt : (h.metaLen / h.hopMetaLen).toNat = nodes.length) (hlt : nodes.length < slots)
    (hfront : intMetaCodec.size ≤ (nodes.flatMap intMetaCodec.encode ++ rest).length) :
    processPacket opt st
        (eth ++ (intInfluxCodec.encode h ++ (nodes.flatMap intMetaCodec.encode ++ rest))) =
      .ok (cutTimestamps opt
          (recordOf st h nodes (frontNode (nodes.flatMap intMetaCodec.encode ++ rest))),
        stateAfter st h nodes) := by
  obtain ⟨next, hkey⟩ := deref_mapKey h (nodes.flatMap intMetaCodec.encode ++ rest)
  have hn := getIntNodeData_nodes (getIntHeaderData default st.flowMap h (mapKey h)).1 st.prevTimestamps
    nodes rest (h.metaLen / h.hopMetaLen) hcnt hlt hfront _ rfl
  rw [getIntHeaderData_dstTs, getIntHeaderData_nodeMeta, List.nil_append] at hn
  simp only [processPacket, List.drop_left' heth, deref_encode, ok_bind, hkey, hlen, ↓reduceIte, hn]
  rfl

theorem bind_eq_ok {α β : Type} {x : Except Fault α} {f : α → Except Fault β} {b : β}
    (h : (x >>= f) = .ok b) : ∃ a, x = .ok a ∧ f a = .ok b := by
  cases x with
  | error e => cases h
  | ok a => exact ⟨a, rfl, h⟩

theorem processPacket_ok (opt : Options) (st : Globals slots) (eth p : List Byte) (h : IntInflux)
    (heth : eth.length = 14) (r : TelemetricHdr × Globals slots)
    (hr : processPacket opt st (eth ++ (intInfluxCodec.encode h ++ p)) = .ok r) :
    h.hopMetaLen ≠ 0 ∧ (h.metaLen / h.hopMetaLen).toNat < slots := by
  obtain ⟨next, hkey⟩ := deref_mapKey h p
  simp only [processPacket, List.drop_left' heth, deref_encode, ok_bind, hkey] at hr
  by_cases hz : h.hopMetaLen = 0
  · rw [if_pos hz] at hr
    cases hr
  · rw [if_neg hz] at hr
    obtain ⟨_, hg, _⟩ := bind_eq_ok hr
    obtain ⟨_, _, hg⟩ := bind_eq_ok hg
    obtain ⟨_, _, hg⟩ := bind_eq_ok hg
    obtain ⟨_, hx, _⟩ := bind_eq_ok hg
    refine ⟨hz, ?_⟩
    by_contra hge
    rw [exchange, dif_neg hge] at hx
    cases hx

def nodesIn : Nat → List Byte → List IntMeta
  | 0, _ => []
  | n + 1, p => frontNode p :: nodesIn n (p.drop intMetaCodec.size)

theorem nodesIn_length (n : Nat) (p : List Byte) : (nodesIn n p).length = n := by
  induction n generalizing p with
  | zero => rfl
  | succ n ih => rw [nodesIn, List.length_cons, ih]

theorem nodesIn_append (n : Nat) (p : List Byte) (h : n * intMetaCodec.size ≤ p.length) :
    (nodesIn n p).flatMap intMetaCodec.encode ++ p.drop (n * intMetaCodec.size) = p := by
  induction n generalizing p with
  | zero => rw [Nat.zero_mul, List.drop_zero, nodesIn, List.flatMap_nil, List.nil_append]
  | succ n ih =>
      rw [Nat.succ_mul] at h
      have hrest := ih (p.drop intMetaCodec.size) (by rw [List.length_drop]; omega)
      have htake : (p.take intMetaCodec.size).length = intMetaCodec.size := by
        rw [List.length_take]
        omega
      rw [List.drop_drop, Nat.add_comm, ← Nat.succ_mul] at hrest
      rw [nodesIn, List.flatMap_cons, List.append_assoc, hrest, frontNode,
        intMetaCodec.encode_decode _ htake, List.take_append_drop]

theorem processPacket_eq_ok (opt : Options) (st : Globals slots) (eth p : List Byte) (h : IntInflux)
    (heth : eth.length = 14) (hp : reach * intMetaCodec.size ≤ p.length)
    (r : TelemetricHdr × Globals slots) :
    processPacket opt st (eth ++ (intInfluxCodec.encode h ++ p)) = .ok r ↔
      h.hopMetaLen ≠ 0 ∧ (h.metaLen / h.hopMetaLen).toNat < slots ∧
        r = (cutTimestamps opt (recordOf st h (nodesIn (h.metaLen / h.hopMetaLen).toNat p) (frontNode p)),
          stateAfter st h (nodesIn (h.metaLen / h.hopMetaLen).toNat p)) := by
  have hrun (hlen : h.hopMetaLen ≠ 0) (hlt : (h.metaLen / h.hopMetaLen).toNat < slots) :
      processPacket opt st (eth ++ (intInfluxCodec.encode h ++ p)) =
        .ok (cutTimestamps opt (recordOf st h (nodesIn (h.metaLen / h.hopMetaLen).toNat p) (frontNode p)),
          stateAfter st h (nodesIn (h.metaLen / h.hopMetaLen).toNat p)) := by
    have hreach : (h.metaLen / h.hopMetaLen).toNat ≤ reach := Nat.le_of_lt (BitVec.isLt _)
    have hle := Nat.mul_le_mul_right intMetaCodec.size hreach
    have hsplit := nodesIn_append (h.metaLen / h.hopMetaLen).toNat p (Nat.le_trans hle hp)
    have hn := nodesIn_length (h.metaLen / h.hopMetaLen).toNat p
    have hpr := processPacket_report opt st eth (p.drop ((h.metaLen / h.hopMetaLen).toNat *
      intMetaCodec.size)) h (nodesIn (h.metaLen / h.hopMetaLen).toNat p) heth hlen hn.symm
      (hn.symm ▸ hlt)
    rw [hsplit] at hpr
    exact hpr (Nat.le_trans (Nat.le_mul_of_pos_left _ (by decide)) hp)
  constructor
  · intro hr
    obtain ⟨hlen, hlt⟩ := processPacket_ok opt st eth p h heth r hr
    rw [hrun hlen hlt] at hr
    exact ⟨hlen, hlt, (Except.ok.inj hr).symm⟩
  · rintro ⟨hlen, hlt, rfl⟩
    exact hrun hlen hlt

theorem map_mapIdx {α β γ : Type} (f : Nat → β → γ) (g : α → β) (l : List α) :
    (l.map g).mapIdx f = l.mapIdx fun i a => f i (g a) := by
  induction l generalizing f with
  | nil => rfl
  | cons a l ih => rw [List.map_cons, List.mapIdx_cons, List.mapIdx_cons, ih]

theorem map_nodeRecords {β : Type} (t : Timestamps slots) (f : TelemetricMeta → β) (g : Nat → IntMeta → β)
    (hf : ∀ i tmpEg h, f (nodeRecord t i tmpEg h) = g i h) (i : Nat) (tmpEg : BitVec 64)
    (nodes : List IntMeta) :
    (nodeRecords t i tmpEg nodes).map f = nodes.mapIdx fun k h => g (i + k) h := by
  induction nodes generalizing i tmpEg with
  | nil => rfl
  | cons h nodes ih =>
      rw [nodeRecords, List.map_cons, ih, List.mapIdx_cons, hf]
      simp only [Nat.add_zero, Nat.add_assoc, Nat.add_comm 1]

theorem map_hopOf_nodeRecords (t : Timestamps slots) (tmpEg : BitVec 64) (nodes : List IntMeta) :
    (nodeRecords t 0 tmpEg nodes).map hopOf = nodes.mapIdx hopOfNode := by
  rw [map_nodeRecords t hopOf hopOfNode (fun _ _ _ => rfl)]
  simp only [Nat.zero_add]

theorem map_hopJitter_nodeRecords (t : Timestamps slots) (tmpEg : BitVec 64) (nodes : List IntMeta) :
    (nodeRecords t 0 tmpEg nodes).map TelemetricMeta.hopJitter =
      (nodes.map fun h => ntoh64 h.ingressTstamp).mapIdx fun i ts => ts - entry t i := by
  rw [map_nodeRecords t TelemetricMeta.hopJitter (fun i h => ntoh64 h.ingressTstamp - entry t i)
    (fun _ _ _ => rfl), map_mapIdx]
  simp only [Nat.zero_add]

theorem processPacket_nodes (opt : Options) (st : Globals slots) (eth rest : List Byte) (h : IntInflux)
    (first : IntMeta) (nodes : List IntMeta) (heth : eth.length = 14) (hlen : h.hopMetaLen ≠ 0)
    (hcnt : (h.metaLen / h.hopMetaLen).toNat = (first :: nodes).length)
    (hlt : (first :: nodes).length < slots) :
    ∃ hdr st' records last, processPacket opt st
        (eth ++ (intInfluxCodec.encode h ++ ((first :: nodes).flatMap intMetaCodec.encode ++ rest))) =
          .ok (cutTimestamps opt hdr, st') ∧
      hdr.origTs = ntoh64 first.ingressTstamp ∧
      hdr.dstTs = ntoh64 h.ndkTstamp ∧
      hdr.delay = ntoh64 h.ndkTstamp - ntoh64 first.ingressTstamp ∧
      hdr.nodeMeta = records ++ [last] ∧
      records.map hopOf = (first :: nodes).mapIdx hopOfNode := by
  have hfront : intMetaCodec.size ≤ ((first :: nodes).flatMap intMetaCodec.encode ++ rest).length := by
    rw [List.flatMap_cons, List.append_assoc, List.length_append, Codec.encode_length]
    exact Nat.le_add_right _ _
  have hp := processPacket_report opt st eth rest h (first :: nodes) heth hlen hcnt hlt hfront
  rw [frontNode_cons] at hp
  refine ⟨_, _, nodeRecords st.prevTimestamps 0 (ntoh64 first.egressTstamp) (first :: nodes), _,
    hp, rfl, rfl, rfl, rfl, ?_⟩
  rw [map_hopOf_nodeRecords]

/-- Only two timestamps are cut, not what was computed from them. -/
theorem cutTimestamps_eq (opt : Options) (hdr : TelemetricHdr) :
    cutTimestamps opt hdr =
      { hdr with origTs := (cutTimestamps opt hdr).origTs, dstTs := (cutTimestamps opt hdr).dstTs } := by
  rw [cutTimestamps]
  split
  · rfl
  · rfl

theorem cutTimestamps_nodeMeta (opt : Options) (hdr : TelemetricHdr) :
    (cutTimestamps opt hdr).nodeMeta = hdr.nodeMeta := by
  rw [cutTimestamps_eq]

theorem cutTimestamps_delay (opt : Options) (hdr : TelemetricHdr) :
    (cutTimestamps opt hdr).delay = hdr.delay := by
  rw [cutTimestamps_eq]

theorem recvfrom_append (front rest buffer : List Byte) (h : front.length ≤ pktBufSize) :
    ∃ rest', recvfrom (front ++ rest) buffer = front ++ rest' := by
  rw [recvfrom, List.append_assoc, List.take_append, List.take_of_length_le h]
  exact ⟨_, rfl⟩

theorem recvfrom_length (frame buffer : List Byte) (h : buffer.length = pktBufSize) :
    (recvfrom frame buffer).length = pktBufSize := by
  rw [recvfrom, List.length_take, List.length_append, List.length_drop, h]
  omega

end IntPlatform.Collector.Outcome
