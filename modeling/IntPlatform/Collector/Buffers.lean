import IntPlatform.Collector.Outcome

namespace IntPlatform.Collector.Buffers

open Library.Formats Library.SlotTable Records ProcessPacket Outcome

variable {slots : Nat}

def influxOf (buffer : List Byte) : IntInflux :=
  intInfluxCodec.decode ((buffer.drop 14).take intInfluxCodec.size)

def regionOf (buffer : List Byte) : List Byte := buffer.drop (14 + intInfluxCodec.size)

def metaCntOf (h : IntInflux) : Nat := (h.metaLen / h.hopMetaLen).toNat

def announced (buffer : List Byte) : List IntMeta :=
  nodesIn (metaCntOf (influxOf buffer)) (regionOf buffer)

def recorded (opt : Options) (st : Globals slots) (buffer : List Byte) : TelemetricHdr × Globals slots :=
  (cutTimestamps opt (recordOf st (influxOf buffer) (announced buffer) (frontNode (regionOf buffer))),
    stateAfter st (influxOf buffer) (announced buffer))

theorem announced_length (buffer : List Byte) :
    (announced buffer).length = metaCntOf (influxOf buffer) := nodesIn_length _ _

theorem metaCntOf_lt_reach (h : IntInflux) : metaCntOf h < reach := (h.metaLen / h.hopMetaLen).isLt

theorem buffer_eq (buffer : List Byte) (h : buffer.length = pktBufSize) :
    buffer = buffer.take 14 ++ (intInfluxCodec.encode (influxOf buffer) ++ regionOf buffer) ∧
      (buffer.take 14).length = 14 ∧ reach * intMetaCodec.size ≤ (regionOf buffer).length := by
  have hsize : 14 + intInfluxCodec.size + reach * intMetaCodec.size ≤ pktBufSize := by decide
  have hinflux : ((buffer.drop 14).take intInfluxCodec.size).length = intInfluxCodec.size := by
    rw [List.length_take, List.length_drop]
    omega
  refine ⟨?_, ?_, ?_⟩
  · rw [influxOf, intInfluxCodec.encode_decode _ hinflux, regionOf, ← List.drop_drop,
      List.take_append_drop, List.take_append_drop]
  · rw [List.length_take]
    omega
  · rw [regionOf, List.length_drop]
    omega

theorem nodeLoop_fault (n i : Nat) (p : List Byte) (s : NodeLoop slots) (hi : i ≤ slots)
    (hn : slots < i + n) (hp : (slots - i + 1) * intMetaCodec.size ≤ p.length) :
    nodeLoop n i p s = .error .indexOutOfRange := by
  induction n generalizing i p s with
  | zero => omega
  | succ n ih =>
      have hone : intMetaCodec.size ≤ p.length := by
        rw [Nat.succ_mul] at hp
        omega
      rw [nodeLoop, deref_frontNode p hone]
      simp only [ok_bind]
      by_cases hlt : i < slots
      · rw [nodeIteration_of_lt i _ s hlt]
        simp only [ok_bind]
        apply ih
        · exact hlt
        · omega
        · have hsub : slots - i = slots - (i + 1) + 1 := by omega
          rw [hsub, Nat.succ_mul] at hp
          rw [List.length_drop]
          omega
      · rw [nodeIteration, exchange, dif_neg hlt]
        rfl

theorem getIntNodeData_fault (tmpHdr : TelemetricHdr) (t : Timestamps slots) (p : List Byte)
    (metaCnt : BitVec 8) (hcnt : slots ≤ metaCnt.toNat)
    (hreach : reach * intMetaCodec.size ≤ p.length) :
    getIntNodeData tmpHdr t p metaCnt = .error .indexOutOfRange := by
  have hslots : slots + 1 ≤ reach := Nat.lt_of_le_of_lt hcnt metaCnt.isLt
  have hp : (slots + 1) * intMetaCodec.size ≤ p.length :=
    Nat.le_trans (Nat.mul_le_mul_right _ hslots) hreach
  have hone : intMetaCodec.size ≤ p.length :=
    Nat.le_trans (Nat.le_mul_of_pos_left _ (Nat.succ_pos slots)) hp
  rw [getIntNodeData, deref_frontNode p hone]
  simp only [ok_bind]
  rcases Nat.eq_or_lt_of_le hcnt with heq | hlt
  · have hle : slots * intMetaCodec.size ≤ p.length :=
      Nat.le_trans (Nat.mul_le_mul_right _ (Nat.le_succ slots)) hp
    have hsplit := nodesIn_append slots p hle
    have hlen := nodesIn_length slots p
    have hloop := nodeLoop_nodes (nodesIn slots p) 0 (p.drop (slots * intMetaCodec.size))
      ⟨ntoh64 (frontNode p).egressTstamp, t, tmpHdr.nodeMeta⟩ (by omega)
    rw [hsplit, hlen] at hloop
    have hge : ¬ metaCnt.toNat < slots := by omega
    rw [← heq, hloop]
    simp only [ok_bind]
    rw [exchange, dif_neg (Nat.lt_irrefl slots)]
    rfl
  · rw [nodeLoop_fault metaCnt.toNat 0 p _ (Nat.zero_le _) (by omega) hp]
    rfl

theorem processPacket_buffer (opt : Options) (st : Globals slots) (buffer : List Byte)
    (h : buffer.length = pktBufSize) :
    processPacket opt st buffer =
      if (influxOf buffer).hopMetaLen = 0 then .error .divisionByZero
      else if metaCntOf (influxOf buffer) < slots then .ok (recorded opt st buffer)
      else .error .indexOutOfRange := by
  obtain ⟨hsplit, heth, hregion⟩ := buffer_eq buffer h
  obtain ⟨next, hkey⟩ := deref_mapKey (influxOf buffer) (regionOf buffer)
  by_cases hz : (influxOf buffer).hopMetaLen = 0
  · rw [if_pos hz, hsplit]
    simp only [processPacket, List.drop_left' heth, deref_encode, ok_bind, hkey, hz, ↓reduceIte]
    rfl
  · rw [if_neg hz]
    by_cases hlt : metaCntOf (influxOf buffer) < slots
    · rw [if_pos hlt]
      nth_rewrite 1 [hsplit]
      rw [processPacket_eq_ok opt st _ _ _ heth hregion]
      exact ⟨hz, hlt, rfl⟩
    · have hfault := getIntNodeData_fault
        (getIntHeaderData default st.flowMap (influxOf buffer) (mapKey (influxOf buffer))).1
        st.prevTimestamps (regionOf buffer) ((influxOf buffer).metaLen / (influxOf buffer).hopMetaLen)
        (Nat.not_lt.mp hlt) hregion
      rw [if_neg hlt, hsplit]
      simp only [processPacket, List.drop_left' heth, deref_encode, ok_bind, hkey, hz, ↓reduceIte, hfault]
      rfl

theorem processPacket_buffer_ok (opt : Options) (st : Globals slots) (buffer : List Byte)
    (h : buffer.length = pktBufSize) (r : TelemetricHdr × Globals slots)
    (hr : processPacket opt st buffer = .ok r) :
    (influxOf buffer).hopMetaLen ≠ 0 ∧ metaCntOf (influxOf buffer) < slots ∧
      r = recorded opt st buffer := by
  rw [processPacket_buffer opt st buffer h] at hr
  by_cases hz : (influxOf buffer).hopMetaLen = 0
  · rw [if_pos hz] at hr
    cases hr
  · rw [if_neg hz] at hr
    by_cases hlt : metaCntOf (influxOf buffer) < slots
    · rw [if_pos hlt] at hr
      exact ⟨hz, hlt, (Except.ok.inj hr).symm⟩
    · rw [if_neg hlt] at hr
      cases hr

end IntPlatform.Collector.Buffers
