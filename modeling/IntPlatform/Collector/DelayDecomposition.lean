import Mathlib.Algebra.Group.Nat.Defs
import IntPlatform.Collector.Outcome

namespace IntPlatform.Collector.DelayDecomposition

open Library.Formats Library.SlotTable Records ProcessPacket Outcome

def ingress (h : IntMeta) : BitVec 64 := ntoh64 h.ingressTstamp

def egress (h : IntMeta) : BitVec 64 := ntoh64 h.egressTstamp

def times (h : IntMeta) : List Nat := [(ingress h).toNat, (egress h).toNat]

/-- Every node takes the packet after the one before it let it go, and the sink
comes last. -/
structure Causal (nodes : List IntMeta) (dstTs : BitVec 64) : Prop where
  ordered : (nodes.flatMap times ++ [dstTs.toNat]).IsChain (· ≤ ·)
  bounded : dstTs.toNat < 2 ^ 63

def gap (next previous : BitVec 64) : Int := next.toNat - previous.toNat

def linkTimes (nodes : List IntMeta) (dstTs : BitVec 64) : List Int :=
  List.zipWith gap (nodes.tail.map ingress ++ [dstTs]) (nodes.map egress)

def delays : List TelemetricMeta → Int
  | [] => 0
  | entry :: entries => entry.hopDelay.toNat + entry.linkDelay.toInt + delays entries

/-- The hops of a record divide its delay into the times at the nodes and on
the links between them. -/
structure Decomposes (nodes : List IntMeta) (dstTs : BitVec 64) (entries : List TelemetricMeta)
    (delay : BitVec 64) : Prop where
  links : entries.tail.map (fun entry => entry.linkDelay.toInt) = linkTimes nodes dstTs
  nonneg : ∀ entry ∈ entries.tail, 0 ≤ entry.linkDelay.toInt
  total : delays entries = delay.toNat
  delay : ∀ first ∈ nodes.head?, (delay.toNat : Int) = gap dstTs (ingress first)

/-- No time passes between a node and the next one. -/
def Instant (nodes : List IntMeta) (dstTs : BitVec 64) : Prop :=
  nodes.tail.map ingress ++ [dstTs] = nodes.map egress

instance (nodes : List IntMeta) (dstTs : BitVec 64) : Decidable (Instant nodes dstTs) :=
  inferInstanceAs (Decidable (_ = _))

theorem toInt_sub_of_le (a b : BitVec 64) (hle : a.toNat ≤ b.toNat) (hb : b.toNat < 2 ^ 63) :
    (a - b).toInt = -gap b a := by
  rw [gap, BitVec.toInt_sub, BitVec.toInt_eq_toNat_of_lt (by omega), BitVec.toInt_eq_toNat_of_lt (by omega),
    Int.bmod_eq_of_le (by omega) (by omega)]
  omega

def entriesFrom (t : Timestamps maxNodes) (i : Nat) (previous : BitVec 64) (nodes : List IntMeta)
    (dstTs : BitVec 64) : List TelemetricMeta :=
  nodeRecords t i previous nodes ++
    [sinkRecord t (i + nodes.length) (lastEgress i previous nodes) dstTs]

theorem entriesFrom_cons (t : Timestamps maxNodes) (i : Nat) (previous : BitVec 64) (h : IntMeta)
    (nodes : List IntMeta) (dstTs : BitVec 64) :
    entriesFrom t i previous (h :: nodes) dstTs =
      nodeRecord t i previous h :: entriesFrom t (i + 1) (nextEgress i previous h) nodes dstTs := by
  rw [entriesFrom, entriesFrom, nodeRecords, lastEgress, List.length_cons, Nat.add_comm nodes.length,
    Nat.add_assoc, List.cons_append]

theorem hopDelay_nodeRecord (t : Timestamps maxNodes) (i : Nat) (previous : BitVec 64) (h : IntMeta)
    (hle : (ingress h).toNat ≤ (egress h).toNat) :
    (nodeRecord t i previous h).hopDelay.toNat = (egress h).toNat - (ingress h).toNat := by
  have hhop : (nodeRecord t i previous h).hopDelay = egress h - ingress h := rfl
  rw [hhop, BitVec.toNat_sub_of_le (BitVec.le_def.mpr hle)]

section Later

variable (t : Timestamps maxNodes) (dstTs : BitVec 64)

def After (previous : BitVec 64) (nodes : List IntMeta) : Prop :=
  (previous.toNat :: (nodes.flatMap times ++ [dstTs.toNat])).IsChain (· ≤ ·)

theorem after_nil (previous : BitVec 64) : After dstTs previous [] ↔ previous.toNat ≤ dstTs.toNat := by
  rw [After, List.flatMap_nil, List.nil_append, List.isChain_cons_cons]
  exact and_iff_left (.singleton _)

theorem after_cons (previous : BitVec 64) (h : IntMeta) (nodes : List IntMeta) :
    After dstTs previous (h :: nodes) ↔ previous.toNat ≤ (ingress h).toNat ∧
      (ingress h).toNat ≤ (egress h).toNat ∧ After dstTs (egress h) nodes := by
  simp only [After, List.flatMap_cons, times, List.cons_append, List.nil_append, List.isChain_cons_cons]

theorem after_le (previous : BitVec 64) (nodes : List IntMeta) (hc : After dstTs previous nodes) :
    previous.toNat ≤ dstTs.toNat := by
  induction nodes generalizing previous with
  | nil => exact (after_nil dstTs previous).mp hc
  | cons h nodes ih =>
      obtain ⟨hin, heg, hc⟩ := (after_cons dstTs previous h nodes).mp hc
      exact Nat.le_trans hin (Nat.le_trans heg (ih _ hc))

variable (hdst : dstTs.toNat < 2 ^ 63)

include hdst

theorem linkDelay_entriesFrom (i : Nat) (previous : BitVec 64) (nodes : List IntMeta) (hi : i ≠ 0)
    (hc : After dstTs previous nodes) :
    (entriesFrom t i previous nodes dstTs).map (fun entry => entry.linkDelay.toInt) =
      (List.zipWith gap (nodes.map ingress ++ [dstTs]) (previous :: nodes.map egress)).map Neg.neg := by
  induction nodes generalizing i previous with
  | nil =>
      have hlink := toInt_sub_of_le previous dstTs ((after_nil dstTs previous).mp hc) hdst
      simp only [entriesFrom, nodeRecords, lastEgress, sinkRecord, List.nil_append, List.map_cons,
        List.map_nil, hlink, List.zipWith_cons_cons, List.zipWith_nil_right]
  | cons h nodes ih =>
      obtain ⟨hin, heg, hc⟩ := (after_cons dstTs previous h nodes).mp hc
      have hle := after_le dstTs _ nodes hc
      have hlink := toInt_sub_of_le previous (ingress h) hin
        (Nat.lt_of_le_of_lt (Nat.le_trans heg hle) hdst)
      have hnext : nextEgress i previous h = egress h := if_neg hi
      have hnode : (nodeRecord t i previous h).linkDelay = previous - ingress h := if_neg hi
      rw [entriesFrom_cons, List.map_cons, hnext, ih (i + 1) (egress h) (Nat.succ_ne_zero i) hc, hnode, hlink]
      rfl

omit hdst in
theorem delays_entriesFrom (i : Nat) (previous : BitVec 64) (nodes : List IntMeta) (hi : i ≠ 0)
    (hc : After dstTs previous nodes)
    (hinstant : nodes.map ingress ++ [dstTs] = previous :: nodes.map egress) :
    delays (entriesFrom t i previous nodes dstTs) = gap dstTs previous := by
  induction nodes generalizing i previous with
  | nil =>
      obtain ⟨rfl, -⟩ := List.cons.inj hinstant
      simp [entriesFrom, nodeRecords, lastEgress, sinkRecord, delays, gap]
  | cons h nodes ih =>
      obtain ⟨hin, heg, hnodes⟩ := (after_cons dstTs previous h nodes).mp hc
      rw [List.map_cons, List.map_cons, List.cons_append] at hinstant
      obtain ⟨rfl, hlater⟩ := List.cons.inj hinstant
      have hnext : nextEgress i (ingress h) h = egress h := if_neg hi
      have hnode : (nodeRecord t i (ingress h) h).linkDelay = ingress h - ingress h := if_neg hi
      have hhop := hopDelay_nodeRecord t i (ingress h) h heg
      rw [entriesFrom_cons, delays, hnext, ih (i + 1) (egress h) (Nat.succ_ne_zero i) hnodes hlater, hnode,
        hhop, BitVec.sub_self, gap, gap, BitVec.toInt_zero]
      omega

end Later

theorem map_neg_eq_self (l : List Int) : l.map Neg.neg = l ↔ ∀ x ∈ l, x = 0 := by
  have h : l.map Neg.neg = l.map id ↔ ∀ x ∈ l, -x = x := List.map_inj_left
  rw [List.map_id] at h
  rw [h]
  exact forall_congr' fun x => imp_congr_right fun _ => by omega

theorem gap_eq_zero (next previous : BitVec 64) : gap next previous = 0 ↔ next = previous := by
  rw [gap, ← BitVec.toNat_inj]
  omega

theorem linkTimes_eq_zero (nodes : List IntMeta) (dstTs : BitVec 64) (hne : nodes ≠ []) :
    (∀ x ∈ linkTimes nodes dstTs, x = 0) ↔ Instant nodes dstTs := by
  have hzip (xs ys : List (BitVec 64)) (hlen : xs.length = ys.length) :
      (∀ x ∈ List.zipWith gap xs ys, x = 0) ↔ xs = ys := by
    induction xs generalizing ys with
    | nil =>
        cases ys with
        | nil => simp
        | cons y ys => cases hlen
    | cons x xs ih =>
        cases ys with
        | nil => cases hlen
        | cons y ys =>
            rw [List.zipWith_cons_cons, List.forall_mem_cons, ih ys (Nat.succ.inj hlen), gap_eq_zero,
              List.cons.injEq]
  apply hzip
  obtain ⟨first, rest, rfl⟩ := List.exists_cons_of_ne_nil hne
  simp

section First

variable (t : Timestamps maxNodes) (first : IntMeta) (rest : List IntMeta) (dstTs : BitVec 64)
  (hc : Causal (first :: rest) dstTs)

include hc

theorem after_first : (ingress first).toNat ≤ (egress first).toNat ∧ After dstTs (egress first) rest := by
  have hchain := hc.ordered
  simp only [List.flatMap_cons, times, List.cons_append, List.nil_append] at hchain
  exact List.isChain_cons_cons.mp hchain

theorem links_tail :
    (entriesFrom t 0 (egress first) (first :: rest) dstTs).tail.map (fun entry => entry.linkDelay.toInt) =
      (linkTimes (first :: rest) dstTs).map Neg.neg := by
  rw [entriesFrom_cons, List.tail_cons]
  exact linkDelay_entriesFrom t dstTs hc.bounded 1 (egress first) rest Nat.one_ne_zero
    (after_first first rest dstTs hc).2

theorem decomposes_of_instant (hinstant : Instant (first :: rest) dstTs) :
    Decomposes (first :: rest) dstTs (entriesFrom t 0 (egress first) (first :: rest) dstTs)
      (dstTs - ingress first) := by
  obtain ⟨hfirst, hafter⟩ := after_first first rest dstTs hc
  have hle := after_le dstTs _ rest hafter
  have hzero := (linkTimes_eq_zero _ dstTs (List.cons_ne_nil first rest)).mpr hinstant
  have hlinks := links_tail t first rest dstTs hc
  rw [(map_neg_eq_self _).mpr hzero] at hlinks
  have hdelay : (dstTs - ingress first).toNat = dstTs.toNat - (ingress first).toNat :=
    BitVec.toNat_sub_of_le (BitVec.le_def.mpr (by omega))
  refine ⟨hlinks, ?_, ?_, ?_⟩
  · intro entry he
    have hmem := List.mem_map_of_mem (f := fun entry => entry.linkDelay.toInt) he
    rw [hlinks] at hmem
    exact Int.le_of_eq (hzero _ hmem).symm
  · have htotal := delays_entriesFrom t dstTs 1 (egress first) rest Nat.one_ne_zero hafter hinstant
    have hhop := hopDelay_nodeRecord t 0 (egress first) first hfirst
    have hlink : (nodeRecord t 0 (egress first) first).linkDelay.toInt = 0 := rfl
    have hnext : nextEgress 0 (egress first) first = egress first := rfl
    rw [entriesFrom_cons, delays, hnext, htotal, hhop, hlink, hdelay, gap]
    omega
  · rintro _ ⟨⟩
    rw [hdelay, gap]
    omega

theorem decomposes_iff :
    Decomposes (first :: rest) dstTs (entriesFrom t 0 (egress first) (first :: rest) dstTs)
        (dstTs - ingress first) ↔ Instant (first :: rest) dstTs := by
  constructor
  · intro h
    have hself := h.links
    rw [links_tail t first rest dstTs hc] at hself
    exact (linkTimes_eq_zero _ dstTs (List.cons_ne_nil first rest)).mp ((map_neg_eq_self _).mp hself)
  · exact decomposes_of_instant t first rest dstTs hc

end First

theorem getIntNodeData_entries (tmpHdr : TelemetricHdr) (t : Timestamps maxNodes) (first : IntMeta)
    (later : List IntMeta) (rest : List Byte) (metaCnt : BitVec 8)
    (hcnt : metaCnt.toNat = (first :: later).length) (hlt : (first :: later).length < maxNodes) :
    ∃ hdr t', getIntNodeData tmpHdr t ((first :: later).flatMap intMetaCodec.encode ++ rest) metaCnt =
        .ok (hdr, t') ∧
      hdr.nodeMeta = tmpHdr.nodeMeta ++ entriesFrom t 0 (egress first) (first :: later) tmpHdr.dstTs ∧
      hdr.delay = tmpHdr.dstTs - ingress first := by
  have hsize : intMetaCodec.size ≤
      ((first :: later).flatMap intMetaCodec.encode ++ rest).length := by
    rw [List.flatMap_cons, List.append_assoc, List.length_append, Codec.encode_length]
    exact Nat.le_add_right _ _
  have hrun := getIntNodeData_nodes tmpHdr t (first :: later) rest metaCnt hcnt hlt hsize first
    (frontNode_cons first later rest).symm
  refine ⟨_, _, hrun, ?_, rfl⟩
  rw [entriesFrom, Nat.zero_add]
  rfl

/-- The delay is divided into the times at the nodes and on the links exactly
when no link takes any time: the link delays are computed the wrong way round. -/
theorem delay_decomposition_iff (tmpHdr : TelemetricHdr) (t : Timestamps maxNodes) (nodes : List IntMeta)
    (rest : List Byte) (metaCnt : BitVec 8) (hcnt : metaCnt.toNat = nodes.length)
    (hpos : 1 ≤ nodes.length) (hlt : nodes.length < maxNodes) (hc : Causal nodes tmpHdr.dstTs) :
    (∃ hdr t' entries,
        getIntNodeData tmpHdr t (nodes.flatMap intMetaCodec.encode ++ rest) metaCnt = .ok (hdr, t') ∧
        hdr.nodeMeta = tmpHdr.nodeMeta ++ entries ∧
        Decomposes nodes tmpHdr.dstTs entries hdr.delay) ↔
      Instant nodes tmpHdr.dstTs := by
  obtain ⟨first, later, rfl⟩ := List.exists_cons_of_length_pos hpos
  obtain ⟨hdr, t', hrun, hmeta, hdelay⟩ :=
    getIntNodeData_entries tmpHdr t first later rest metaCnt hcnt hlt
  rw [← decomposes_iff t first later tmpHdr.dstTs hc]
  constructor
  · rintro ⟨hdr', t'', entries, hok, hmeta', h⟩
    rw [hrun] at hok
    cases hok
    rwa [hdelay, ← List.append_cancel_left (hmeta.symm.trans hmeta')] at h
  · intro h
    exact ⟨hdr, t', _, hrun, hmeta, by rwa [hdelay]⟩

def sampleNode : IntMeta := ⟨1, 0, 0, ntoh64 10, ntoh64 20⟩

theorem sampleNode_causal (dstTs : BitVec 64) (hle : 20 ≤ dstTs.toNat) (hlt : dstTs.toNat < 2 ^ 63) :
    Causal [sampleNode] dstTs := by
  have htimes : [sampleNode].flatMap times = [10, 20] := by decide
  refine ⟨?_, hlt⟩
  rw [htimes]
  simpa using hle

def sampleNodes : List IntMeta := [sampleNode, ⟨2, 0, 0, ntoh64 20, ntoh64 35⟩]

theorem sampleNodes_causal : Causal sampleNodes 35 where
  ordered := by
    have htimes : sampleNodes.flatMap times = [10, 20, 20, 35] := by decide
    rw [htimes]
    simp
  bounded := by decide

theorem delay_decomposition_sample : ∃ hdr t' entries,
    getIntNodeData { (default : TelemetricHdr) with dstTs := 35 } (fun _ => 0 : Timestamps maxNodes)
      (sampleNodes.flatMap intMetaCodec.encode ++ []) 2 = .ok (hdr, t') ∧
    hdr.nodeMeta = [] ++ entries ∧ Decomposes sampleNodes 35 entries hdr.delay :=
  (delay_decomposition_iff { (default : TelemetricHdr) with dstTs := 35 } (fun _ => 0) sampleNodes [] 2 rfl
    (by decide) (by decide) sampleNodes_causal).mpr (by decide)

/-- The link to a sink that has the packet at 50 takes 30, and is given as -30. -/
theorem delay_not_decomposed : Causal [sampleNode] 50 ∧ ¬ ∃ hdr t' entries,
    getIntNodeData { (default : TelemetricHdr) with dstTs := 50 } (fun _ => 0 : Timestamps maxNodes)
      ([sampleNode].flatMap intMetaCodec.encode ++ []) 1 = .ok (hdr, t') ∧
    hdr.nodeMeta = [] ++ entries ∧ Decomposes [sampleNode] 50 entries hdr.delay := by
  have hc := sampleNode_causal 50 (by decide) (by decide)
  refine ⟨hc, ?_⟩
  rintro ⟨hdr, t', entries, hok, hmeta, h⟩
  obtain ⟨hdr', t'', hrun, hmeta', hdelay⟩ := getIntNodeData_entries
    { (default : TelemetricHdr) with dstTs := 50 } (fun _ => 0) sampleNode [] [] 1 rfl (by decide)
  rw [hrun] at hok
  cases hok
  rw [hdelay, ← List.append_cancel_left (hmeta'.symm.trans hmeta)] at h
  have hinstant := (decomposes_iff _ sampleNode [] 50 hc).mp h
  revert hinstant
  decide

end IntPlatform.Collector.DelayDecomposition
