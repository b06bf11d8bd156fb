import IntPlatform.Collector.Buffers
import IntPlatform.Collector.Loop

namespace IntPlatform.Collector.Runs

open Library.Formats Library.Mealy Records ProcessPacket Outcome Buffers Loop

variable {slots : Nat}

def buffersOf (buffer : List Byte) : List (List Byte) → List (List Byte)
  | [] => []
  | frame :: frames => recvfrom frame buffer :: buffersOf (recvfrom frame buffer) frames

/-- A buffer that can be divided into nodes, with slots for all of them. -/
structure Processable (slots : Nat) (buffer : List Byte) : Prop where
  divisible : (influxOf buffer).hopMetaLen ≠ 0
  fits : metaCntOf (influxOf buffer) < slots

def decoder (opt : Options) : Machine (Globals slots) (List Byte) TelemetricHdr where
  next st buffer := { (recorded opt st buffer).2 with pktCnt := st.pktCnt + 1 }
  out st buffer := (recorded opt st buffer).1

theorem buffersOf_length (buffer : List Byte) (frames : List (List Byte)) :
    (buffersOf buffer frames).length = frames.length := by
  induction frames generalizing buffer with
  | nil => rfl
  | cons frame frames ih => rw [buffersOf, List.length_cons, ih, List.length_cons]

theorem processPacket_processable (opt : Options) (st : Globals slots) (buffer : List Byte)
    (h : buffer.length = pktBufSize) (hp : Processable slots buffer) :
    processPacket opt st buffer = .ok (recorded opt st buffer) := by
  rw [processPacket_buffer opt st buffer h, if_neg hp.divisible, if_pos hp.fits]

theorem loopProccess_eq_ok (opt : Options) (st : Globals slots) (buffer : List Byte) (frames : List (List Byte))
    (h : buffer.length = pktBufSize) (records : List TelemetricHdr) :
    loopProccess opt st buffer frames = .ok records ↔
      (∀ b ∈ buffersOf buffer frames, Processable slots b) ∧
        records = (decoder opt).outputs st (buffersOf buffer frames) := by
  induction frames generalizing st buffer records with
  | nil =>
      rw [loopProccess, buffersOf]
      constructor
      · intro hr
        cases hr
        exact ⟨fun b hb => absurd hb List.not_mem_nil, rfl⟩
      · rintro ⟨-, rfl⟩
        rfl
  | cons frame frames ih =>
      have hlen := recvfrom_length frame buffer h
      have hrest (rest : List TelemetricHdr) :=
        ih ((decoder opt).next st (recvfrom frame buffer)) (recvfrom frame buffer) hlen rest
      rw [loopProccess, buffersOf, List.forall_mem_cons, Machine.outputs]
      constructor
      · intro hr
        obtain ⟨r, hp, hr⟩ := bind_eq_ok hr
        obtain ⟨hz, hlt, rfl⟩ := processPacket_buffer_ok opt st _ hlen r hp
        obtain ⟨rest, hloop, hr⟩ := bind_eq_ok hr
        obtain ⟨hall, rfl⟩ := (hrest rest).mp hloop
        cases hr
        exact ⟨⟨⟨hz, hlt⟩, hall⟩, rfl⟩
      · rintro ⟨⟨hp, hall⟩, rfl⟩
        have hloop := (hrest _).mpr ⟨hall, rfl⟩
        rw [processPacket_processable opt st _ hlen hp]
        simp only [ok_bind]
        exact congrArg (fun x => x >>= fun rest => pure (_ :: rest)) hloop

section Out

variable (opt : Options) (st : Globals slots) (buffer : List Byte)

theorem out_eq : ∃ origTs dstTs, (decoder opt).out st buffer =
    { recordOf st (influxOf buffer) (announced buffer) (frontNode (regionOf buffer)) with
      origTs := origTs, dstTs := dstTs } :=
  ⟨_, _, cutTimestamps_eq opt _⟩

theorem out_seqNum : ((decoder opt).out st buffer).seqNum =
    seqAfter (st.flowMap (mapKey (influxOf buffer))) (rawSeq (influxOf buffer)) := by
  obtain ⟨_, _, h⟩ := out_eq opt st buffer
  rw [h]
  exact recordOf_seqNum st (influxOf buffer) (announced buffer) (frontNode (regionOf buffer))

theorem out_reordering : ((decoder opt).out st buffer).reordering =
    if rawSeq (influxOf buffer) = 0 then 0
    else rawSeq (influxOf buffer) - (st.flowMap (mapKey (influxOf buffer))).seq - 1 := by
  obtain ⟨_, _, h⟩ := out_eq opt st buffer
  rw [h]
  exact recordOf_reordering st (influxOf buffer) (announced buffer) (frontNode (regionOf buffer))

theorem out_sinkJitter : ((decoder opt).out st buffer).sinkJitter =
    ntoh64 (influxOf buffer).ndkTstamp - (st.flowMap (mapKey (influxOf buffer))).prevDstTs := by
  obtain ⟨_, _, h⟩ := out_eq opt st buffer
  rw [h]
  exact recordOf_sinkJitter st (influxOf buffer) (announced buffer) (frontNode (regionOf buffer))

theorem recorded_flowMap : (recorded opt st buffer).2.flowMap =
    Function.update st.flowMap (mapKey (influxOf buffer))
      ⟨seqAfter (st.flowMap (mapKey (influxOf buffer))) (rawSeq (influxOf buffer)),
        ntoh64 (influxOf buffer).ndkTstamp⟩ :=
  getIntHeaderData_flowMap st.flowMap (influxOf buffer) (mapKey (influxOf buffer))

end Out

end IntPlatform.Collector.Runs
