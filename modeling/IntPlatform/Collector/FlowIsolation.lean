import IntPlatform.Collector.Loop

namespace IntPlatform.Collector.FlowIsolation

open Library.Formats Library.SlotTable Library.Mealy Records ProcessPacket Outcome Loop

structure Flow where
  srcIp : List Char
  dstIp : List Char
  srcPort : BitVec 16
  dstPort : BitVec 16
  protocol : BitVec 8
deriving DecidableEq, Repr

def flowOf (record : TelemetricHdr) : Flow :=
  ⟨record.srcIp, record.dstIp, record.srcPort, record.dstPort, record.protocol⟩

structure Metrics where
  seq : BitVec 64
  reordering : BitVec 64
  sinkJitter : BitVec 64
  hopJitters : List (BitVec 64)
deriving DecidableEq, Repr

def metricsOf (record : TelemetricHdr) : Metrics :=
  ⟨record.seqNum, record.reordering, record.sinkJitter, record.nodeMeta.map TelemetricMeta.hopJitter⟩

def flow (r : Report) : Flow :=
  ⟨inetNtop r.influx.srcAddr, inetNtop r.influx.dstAddr, ntohs r.influx.ingressPortId,
    ntohs r.influx.egressPortId, if rawSeq r.influx = 0 then 17 else 6⟩

/-- The records of a flow have the same metrics when the packets of other flows
are left out. -/
def FlowIsolated (opt : Options) (st : State) (buffer : List Byte) (reports : List Report) (F : Flow) :
    Prop :=
  ∃ all own, loopProccess opt st buffer (reports.map Report.frame) = .ok all ∧
    loopProccess opt st buffer ((reports.filter fun r => flow r = F).map Report.frame) = .ok own ∧
    (all.filter fun record => flowOf record = F).map metricsOf = own.map metricsOf

def pairReports (reports : List Report) (key : BitVec 64) : List Report :=
  reports.filter fun r => mapKey r.influx = key

/-- The last number that is not 0, counted on by the zeros behind it. -/
def countedSeq (seq : BitVec 64) (seqs : List (BitVec 64)) : BitVec 64 :=
  (seqs.filter (· ≠ 0)).getLast?.getD seq +
    BitVec.ofNat 64 (seqs.reverse.takeWhile (· = 0)).length

def lastSeq (m : BitVec 64 → MetaData) (reports : List Report) (key : BitVec 64) : BitVec 64 :=
  countedSeq (m key).seq ((pairReports reports key).map fun r => rawSeq r.influx)

def lastTime (m : BitVec 64 → MetaData) (reports : List Report) (key : BitVec 64) : BitVec 64 :=
  ((pairReports reports key).map Report.dstTs).getLast?.getD (m key).prevDstTs

def lastStamp (t : Timestamps maxNodes) (reports : List Report) (i : Nat) : BitVec 64 :=
  (reports.filterMap fun r => r.stamps[i]?).getLast?.getD (entry t i)

/-- The reports before r leave for r what those of its own flow leave alone. -/
structure Untouched (st : State) (before own : List Report) (r : Report) : Prop where
  seq : lastSeq st.flowMap before (mapKey r.influx) = lastSeq st.flowMap own (mapKey r.influx)
  time : lastTime st.flowMap before (mapKey r.influx) = lastTime st.flowMap own (mapKey r.influx)
  stamps : ∀ i ≤ r.nodes.length,
    lastStamp st.prevTimestamps before i = lastStamp st.prevTimestamps own i

def FlowUntouched (st : State) (reports : List Report) (F : Flow) : Prop :=
  ∀ before r later, reports = before ++ r :: later → flow r = F →
    Untouched st before (before.filter fun r => flow r = F) r

theorem flowOf_record (r : Report) (opt : Options) (st : State) (buffer : List Byte) :
    flowOf (r.record opt st buffer) = flow r := by
  have hcut (hdr : TelemetricHdr) : flowOf (cutTimestamps opt hdr) = flowOf hdr := by
    rw [cutTimestamps_eq]
    rfl
  rw [Report.record, hcut, flowOf, recordOf_srcIp, recordOf_dstIp, recordOf_srcPort, recordOf_dstPort,
    recordOf_protocol]
  rfl

theorem countedSeq_concat (seq : BitVec 64) (seqs : List (BitVec 64)) (raw : BitVec 64) :
    countedSeq seq (seqs ++ [raw]) = if raw = 0 then countedSeq seq seqs + 1 else raw := by
  rw [countedSeq, List.filter_append, List.reverse_concat]
  by_cases hz : raw = 0
  · rw [if_pos hz, List.filter_cons_of_neg (by simpa using hz),
      List.takeWhile_cons_of_pos (by simpa using hz), List.length_cons, BitVec.ofNat_add,
      ← BitVec.add_assoc, List.filter_nil, List.append_nil]
    rfl
  · rw [if_neg hz, List.filter_cons_of_pos (by simpa using hz),
      List.takeWhile_cons_of_neg (by simpa using hz), List.filter_nil, List.getLast?_concat]
    exact BitVec.add_zero raw

theorem pairReports_concat (reports : List Report) (r : Report) (key : BitVec 64) :
    pairReports (reports ++ [r]) key =
      if mapKey r.influx = key then pairReports reports key ++ [r] else pairReports reports key := by
  rw [pairReports, List.filter_append]
  by_cases hk : mapKey r.influx = key
  · rw [if_pos hk, List.filter_cons_of_pos (by simpa using hk)]
    rfl
  · rw [if_neg hk, List.filter_cons_of_neg (by simpa using hk), List.filter_nil, List.append_nil]
    rfl

theorem flowMap_leave (r : Report) (st : State) (key : BitVec 64) :
    (r.leave st).flowMap key =
      if mapKey r.influx = key then ⟨seqAfter (st.flowMap key) (rawSeq r.influx), r.dstTs⟩
      else st.flowMap key := by
  change (getIntHeaderData default st.flowMap r.influx (mapKey r.influx)).2 key = _
  rw [getIntHeaderData_flowMap]
  by_cases hk : mapKey r.influx = key
  · rw [if_pos hk, hk, Function.update_self]
    rfl
  · rw [if_neg hk, Function.update_of_ne (Ne.symm hk)]

theorem flowMap_after (opt : Options) (s : State × List Byte) (reports : List Report) (key : BitVec 64) :
    ((collector opt).after s reports).1.flowMap key =
      ⟨lastSeq s.1.flowMap reports key, lastTime s.1.flowMap reports key⟩ := by
  induction reports using List.reverseRecOn with
  | nil => exact MetaData.ext (BitVec.add_zero _).symm rfl
  | append_singleton reports r ih =>
      rw [Machine.after_concat]
      refine (flowMap_leave r _ key).trans ?_
      rw [ih, lastSeq, lastTime, lastSeq, lastTime, pairReports_concat]
      by_cases hk : mapKey r.influx = key
      · rw [if_pos hk, if_pos hk, List.map_append, List.map_append, List.map_singleton, List.map_singleton,
          countedSeq_concat, List.getLast?_concat]
        rfl
      · rw [if_neg hk, if_neg hk]

theorem prevTimestamps_after (opt : Options) (s : State × List Byte) (reports : List Report) (i : Nat) :
    entry ((collector opt).after s reports).1.prevTimestamps i =
      lastStamp s.1.prevTimestamps reports i := by
  induction reports using List.reverseRecOn with
  | nil => rfl
  | append_singleton reports r ih =>
      have hlen : r.stamps.length ≤ maxNodes := by
        rw [r.stamps_length]
        exact r.fits
      rw [Machine.after_concat]
      refine (entry_overwrite _ r.stamps i hlen).trans ?_
      rw [ih, lastStamp, lastStamp, getLast_filterMap_concat]

theorem metricsOf_record (r : Report) (opt : Options) (st : State) (buffer : List Byte) :
    metricsOf (r.record opt st buffer) =
      ⟨seqAfter (st.flowMap (mapKey r.influx)) (rawSeq r.influx),
        if rawSeq r.influx = 0 then 0 else rawSeq r.influx - (st.flowMap (mapKey r.influx)).seq - 1,
        r.dstTs - (st.flowMap (mapKey r.influx)).prevDstTs,
        r.stamps.mapIdx fun i ts => ts - entry st.prevTimestamps i⟩ := by
  have hcut (hdr : TelemetricHdr) : metricsOf (cutTimestamps opt hdr) = metricsOf hdr := by
    rw [cutTimestamps_eq]
    rfl
  have hjit : (recordOf st r.influx r.nodes (r.first buffer)).nodeMeta.map TelemetricMeta.hopJitter =
      r.stamps.mapIdx fun i ts => ts - entry st.prevTimestamps i := by
    rw [recordOf, Report.stamps, Outcome.stamps, List.map_append, map_hopJitter_nodeRecords]
    rw [List.mapIdx_concat, List.length_map]
    rfl
  rw [Report.record, hcut, metricsOf, recordOf_seqNum, recordOf_reordering, recordOf_sinkJitter, hjit]
  rfl

theorem mapIdx_sub_inj (stamps : List (BitVec 64)) (f g : Nat → BitVec 64) :
    (stamps.mapIdx fun i ts => ts - f i) = (stamps.mapIdx fun i ts => ts - g i) ↔
      ∀ i < stamps.length, f i = g i := by
  rw [List.mapIdx_eq_mapIdx_iff]
  constructor
  · intro h i hi
    have hs := h i hi
    bv_omega
  · intro h i hi
    rw [h i hi]

theorem metricsOf_inj (r : Report) (opt : Options) (st st' : State) (buffer buffer' : List Byte) :
    metricsOf (r.record opt st buffer) = metricsOf (r.record opt st' buffer') ↔
      st.flowMap (mapKey r.influx) = st'.flowMap (mapKey r.influx) ∧
        ∀ i ≤ r.nodes.length, entry st.prevTimestamps i = entry st'.prevTimestamps i := by
  rw [metricsOf_record, metricsOf_record, Metrics.mk.injEq, mapIdx_sub_inj, r.stamps_length]
  simp only [Nat.lt_succ_iff]
  constructor
  · rintro ⟨hseq, hreord, hsink, hstamps⟩
    refine ⟨?_, hstamps⟩
    have hprev : (st.flowMap (mapKey r.influx)).prevDstTs = (st'.flowMap (mapKey r.influx)).prevDstTs := by
      bv_omega
    have heq : (st.flowMap (mapKey r.influx)).seq = (st'.flowMap (mapKey r.influx)).seq := by
      by_cases hz : rawSeq r.influx = 0
      · rw [seqAfter, seqAfter, if_pos hz, if_pos hz] at hseq
        bv_omega
      · rw [if_neg hz, if_neg hz] at hreord
        bv_omega
    exact MetaData.ext heq hprev
  · rintro ⟨hentry, hstamps⟩
    rw [hentry]
    exact ⟨rfl, rfl, rfl, hstamps⟩

section Flow

variable (opt : Options) (st : State) (buffer : List Byte) (h : buffer.length = pktBufSize)
  (reports : List Report) (F : Flow)

theorem isolated_iff_untouched :
    (collector opt).Isolated (fun r => flow r = F) metricsOf (st, buffer) reports ↔
      FlowUntouched st reports F := by
  have hstep (before own : List Report) (r : Report) :
      metricsOf ((collector opt).out ((collector opt).after (st, buffer) before) r) =
        metricsOf ((collector opt).out ((collector opt).after (st, buffer) own) r) ↔
          Untouched st before own r := by
    refine (metricsOf_inj r opt _ _ _ _).trans ?_
    simp only [flowMap_after, prevTimestamps_after, MetaData.mk.injEq]
    exact ⟨fun ⟨⟨hq, ht⟩, hs⟩ => ⟨hq, ht, hs⟩, fun ⟨hq, ht, hs⟩ => ⟨⟨hq, ht⟩, hs⟩⟩
  simp only [Machine.Isolated, hstep, decide_eq_true_eq]
  exact Iff.rfl

include h

theorem isolated_iff :
    FlowIsolated opt st buffer reports F ↔
      (collector opt).Isolated (fun r => flow r = F) metricsOf (st, buffer) reports := by
  have hq (s : State × List Byte) (r : Report) :
      decide (flowOf ((collector opt).out s r) = F) = decide (flow r = F) := by
    rw [← flowOf_record r opt s.1 s.2]
    rfl
  rw [← Machine.isolated_iff (collector opt) (fun r => flow r = F) (fun record => flowOf record = F)
    metricsOf hq]
  constructor
  · rintro ⟨all, own, hall, hown, heq⟩
    rw [loopProccess_reports opt st buffer _ h] at hall hown
    rw [Except.ok.inj hall, Except.ok.inj hown]
    exact heq
  · intro heq
    exact ⟨_, _, loopProccess_reports opt st buffer _ h, loopProccess_reports opt st buffer _ h, heq⟩

/-- The metrics of a flow are those of its own packets exactly when the packets
of other flows overwrite nothing with another value. -/
theorem flow_isolated_iff : FlowIsolated opt st buffer reports F ↔ FlowUntouched st reports F :=
  (isolated_iff opt st buffer h reports F).trans (isolated_iff_untouched opt st buffer reports F)

end Flow

theorem untouched_alone (st : State) (reports : List Report) (F : Flow) (h : ∀ r ∈ reports, flow r = F) :
    FlowUntouched st reports F := by
  intro before r later he _
  have hown : (before.filter fun r => flow r = F) = before := by
    rw [List.filter_eq_self]
    intro r hr
    exact decide_eq_true (h r (he ▸ List.mem_append_left _ hr))
  rw [hown]
  exact ⟨rfl, rfl, fun _ _ => rfl⟩

def sampleReport (srcPort : BitVec 16) (dstTs : BitVec 64) : Report where
  eth := List.replicate 14 0
  influx :=
    { srcAddr := 0x0100000a, dstAddr := 0x0200000a, ingressPortId := ntohs srcPort,
      egressPortId := ntohs 6000, metaLen := 0, hopMetaLen := 6, rsvd1 := (0, 0), ndkTstamp := ntoh64 dstTs,
      delay := 0, seq := 0 }
  nodes := []
  rest := []
  eth_length := rfl
  divisible := show (6 : BitVec 8) ≠ 0 by decide
  announced := show ((0 : BitVec 8) / 6).toNat = 0 by decide
  fits := by decide

theorem flow_isolated_sample :
    FlowIsolated ⟨1, 0, 1, 1⟩ State.initial (List.replicate pktBufSize 0)
      [sampleReport 5000 100, sampleReport 5000 200] (flow (sampleReport 5000 100)) :=
  (flow_isolated_iff ⟨1, 0, 1, 1⟩ State.initial _ List.length_replicate _ _).mpr
    (untouched_alone _ _ _ (List.forall_mem_cons.mpr ⟨rfl, List.forall_mem_singleton.mpr rfl⟩))

/-- Two flows between the same hosts count each other's packets. -/
theorem flows_not_isolated :
    ¬ FlowIsolated ⟨1, 0, 1, 1⟩ State.initial (List.replicate pktBufSize 0)
      [sampleReport 5000 100, sampleReport 5001 200, sampleReport 5000 300]
      (flow (sampleReport 5000 100)) := by
  rw [isolated_iff _ _ _ List.length_replicate, isolated_iff_untouched]
  intro hf
  have htime := (hf [sampleReport 5000 100, sampleReport 5001 200] (sampleReport 5000 300) [] rfl
    rfl).time
  exact absurd htime (by decide)

end IntPlatform.Collector.FlowIsolation
