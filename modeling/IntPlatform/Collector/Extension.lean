import IntPlatform.Collector.Fields
import IntPlatform.Collector.Runs

namespace IntPlatform.Collector.Extension

open Library.Formats Library.SlotTable Records ProcessPacket Outcome Buffers Loop Runs Fields

/-- The globals with the words behind the table hold what the checked ones do. -/
structure Extends (st : State) (m : Memory) : Prop where
  flowMap : m.flowMap = st.flowMap
  table : ∀ i < maxNodes, entry m.prevTimestamps i = entry st.prevTimestamps i
  pktCnt : m.pktCnt = st.pktCnt
  pktDrop : m.pktDrop = st.pktDrop

section Records

variable {slots slots' : Nat}

theorem nodeRecords_entry_congr (t : Timestamps slots) (t' : Timestamps slots') (nodes : List IntMeta) (i : Nat)
    (tmpEg : BitVec 64) (h : ∀ j < nodes.length, entry t (i + j) = entry t' (i + j)) :
    nodeRecords t i tmpEg nodes = nodeRecords t' i tmpEg nodes := by
  induction nodes generalizing i tmpEg with
  | nil => rfl
  | cons node nodes ih =>
      have hhead : entry t i = entry t' i := h 0 (Nat.succ_pos _)
      have hrest := ih (i + 1) (nextEgress i tmpEg node) (by
        intro j hj
        have hnext := h (j + 1) (Nat.succ_lt_succ hj)
        rw [Nat.add_assoc, Nat.add_comm 1 j]
        exact hnext)
      rw [nodeRecords, nodeRecords, hrest, nodeRecord, nodeRecord, hhead]

theorem recordOf_state_congr (st : Globals slots) (st' : Globals slots') (h : IntInflux)
    (nodes : List IntMeta) (first : IntMeta) (hflow : st.flowMap (mapKey h) = st'.flowMap (mapKey h))
    (hentries : ∀ i ≤ nodes.length, entry st.prevTimestamps i = entry st'.prevTimestamps i) :
    recordOf st h nodes first = recordOf st' h nodes first := by
  have hheader : (getIntHeaderData default st.flowMap h (mapKey h)).1 =
      (getIntHeaderData default st'.flowMap h (mapKey h)).1 := by
    rw [getIntHeaderData, getIntHeaderData, hflow]
  have hrecords := nodeRecords_entry_congr st.prevTimestamps st'.prevTimestamps nodes 0
    (ntoh64 first.egressTstamp) (by
      intro j hj
      rw [Nat.zero_add]
      exact hentries j (Nat.le_of_lt hj))
  rw [recordOf, recordOf, hheader, hrecords, sinkRecord, sinkRecord, hentries nodes.length (Nat.le_refl _)]

end Records

section Step

variable {st : State} {m : Memory}

/-- As long as all nodes have slots, the words behind the table are not used. -/
theorem processPacket_extends (opt : Options) (b : List Byte) (hb : b.length = pktBufSize)
    (h : Extends st m) (hp : Processable maxNodes b) :
    processPacket opt m b = .ok ((recorded opt st b).1, (recorded opt m b).2) ∧
      Extends (recorded opt st b).2 (recorded opt m b).2 := by
  have hlen : (announced b).length < maxNodes := by
    rw [announced_length]
    exact hp.fits
  have hstamps : (stamps (announced b) (ntoh64 (influxOf b).ndkTstamp)).length ≤ maxNodes := by
    rw [stamps, List.length_append, List.length_map]
    exact hlen
  have hreach : maxNodes ≤ reach := by decide
  have hrecord := recordOf_state_congr m st (influxOf b) (announced b) (frontNode (regionOf b))
    (congrFun h.flowMap _) fun i hi => h.table i (by omega)
  refine ⟨?_, ?_, ?_, h.pktCnt, h.pktDrop⟩
  · rw [processPacket_processable opt m b hb ⟨hp.divisible, Nat.lt_of_lt_of_le hp.fits hreach⟩, recorded,
      recorded, hrecord]
  · rw [recorded_flowMap, recorded_flowMap, h.flowMap]
  · intro i hi
    refine (entry_overwrite m.prevTimestamps _ i (Nat.le_trans hstamps hreach)).trans ?_
    rw [h.table i hi]
    exact (entry_overwrite st.prevTimestamps _ i hstamps).symm

theorem loopProccess_extends (opt : Options) (buffer : List Byte) (frames : List (List Byte))
    (hb : buffer.length = pktBufSize) (h : Extends st m) (records : List TelemetricHdr)
    (hrun : loopProccess opt st buffer frames = .ok records) :
    loopProccess opt m buffer frames = .ok records := by
  induction frames generalizing st m buffer records with
  | nil => exact hrun
  | cons frame frames ih =>
      have hlen := recvfrom_length frame buffer hb
      rw [loopProccess] at hrun
      obtain ⟨r, hp, hrun⟩ := bind_eq_ok hrun
      obtain ⟨hz, hlt, rfl⟩ := processPacket_buffer_ok opt st _ hlen r hp
      obtain ⟨rest, hloop, hrun⟩ := bind_eq_ok hrun
      obtain ⟨hstep, hnext⟩ := processPacket_extends opt _ hlen h ⟨hz, hlt⟩
      have hcount : Extends { (recorded opt st (recvfrom frame buffer)).2 with pktCnt := st.pktCnt + 1 }
          { (recorded opt m (recvfrom frame buffer)).2 with pktCnt := m.pktCnt + 1 } :=
        ⟨hnext.flowMap, hnext.table, congrArg (· + 1) h.pktCnt, hnext.pktDrop⟩
      have hrest := ih _ hlen hcount rest hloop
      rw [loopProccess, hstep]
      simp only [ok_bind]
      change (loopProccess opt { (recorded opt m (recvfrom frame buffer)).2 with pktCnt := m.pktCnt + 1 } _ _ >>=
        fun records => pure ((recorded opt st (recvfrom frame buffer)).1 :: records)) = _
      rw [hrest]
      exact hrun

end Step

end IntPlatform.Collector.Extension
