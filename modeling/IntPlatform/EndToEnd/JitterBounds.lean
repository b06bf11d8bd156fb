import IntPlatform.Collector.Fields
import IntPlatform.Collector.Loop
import IntPlatform.EndToEnd.FlowHeader

namespace IntPlatform.EndToEnd.JitterBounds

open Library.Formats Library.HeaderValidity T4p4s.HeaderTypes T4p4s.Parsing T4p4s.Controls T4p4s.Switch
open T4p4s.Effects T4p4s.Path T4p4s.ByteEffect T4p4s.Carrying T4p4s.SinkEffect Collector.Records
open Collector.ProcessPacket Collector.Outcome Collector.Buffers Collector.Fields Collector.Loop FlowHeader
open PathReconstruction

/-- The parts of a frame that has n nodes on board. The frame may have been
marked by INT before it came to the source. -/
structure Carries (n : Nat) (s : Segments) : Prop where
  etherType : s.ethernet.etherType = 0x800
  protocol : s.ipv4.protocol = s.l4.protocol
  marked : s.ipv4.dscp = ipv4DscpInt
  counted : ∃ shim header, s.int = some (shim, header) ∧ shim.len = 3 + 6 * BitVec.ofNat 8 n ∧
    header.ver = intVersion ∧ header.hopMetadataLen = 6

theorem Carries.accepted {n : Nat} {s : Segments} (h : Carries n s) (ha : Admissible n) : s.Accepted where
  etherType := h.etherType
  protocol := h.protocol
  marked := by
    obtain ⟨shim, header, hint, -⟩ := h.counted
    rw [hint]
    exact iff_of_true h.marked rfl
  supported := by
    obtain ⟨shim, header, hint, hlen, hver, -⟩ := h.counted
    intro p hp
    rw [hint] at hp
    cases hp
    rw [hlen]
    exact ⟨(admissible_iff n).mpr ha, hver⟩

theorem carries_source (hop : Hop) (d : Datagram) (hsrc : hop.cfg.srcEnable = true) :
    Carries 1 (hop.effect d.toSegments) := by
  have htype := d.accepted.etherType
  have hprot := d.accepted.protocol
  have heffect : hop.effect d.toSegments = mapIpv4 closeChecksum (transited hop.nodeMeta
      (configured (nextSeq hop.reg1).1 (mapIpv4 openChecksum d.toSegments))) :=
    effect_sourcing hop.cfg hop.reg1 hop.arrival d.toSegments hsrc
  rw [heffect]
  refine ⟨htype, ?_, rfl, _, _, rfl, rfl, rfl, rfl⟩
  refine hprot.trans ?_
  cases hl : d.l4 with
  | udp h =>
      change _ = (growUdp 24 (clearCsum (growUdp 12 d.l4))).protocol
      rw [hl]
      rfl
  | tcp h =>
      change _ = (growUdp 24 (clearCsum (growUdp 12 d.l4))).protocol
      rw [hl]
      rfl

theorem carries_transit (hop : Hop) (n : Nat) (s : Segments) (hsrc : hop.cfg.srcEnable = false)
    (h : Carries n s) : Carries (n + 1) (hop.effect s) := by
  obtain ⟨htype, hprot, hmark, shim, header, hint, hlen, hver, hhop⟩ := h
  obtain ⟨csum, heffect⟩ := effect_transit hop s shim header hsrc hint
  rw [heffect]
  refine ⟨htype, ?_, hmark, _, _, rfl, ?_, hver, hhop⟩
  · refine hprot.trans ?_
    cases s.l4 <;> rfl
  · rw [transitShim, hlen, BitVec.ofNat_add, BitVec.mul_add, BitVec.add_assoc]
    rfl

theorem Carries.admissible {n : Nat} {s : Segments} (h : Carries n s) (hop : Hop) (out : List Byte)
    (hf : hop.forward s.frame = some out) : Admissible n := by
  by_contra ha
  obtain ⟨shim, header, hint, hlen, -⟩ := h.counted
  have hshort := parserImpl_short hop.arrival.md s shim header h.etherType h.protocol h.marked hint
    (hlen ▸ mt (admissible_iff n).mp ha)
  rw [Hop.forward, v1Switch, hshort] at hf
  cases hf

theorem carries_run (hops : List Hop)
    (htransit : ∀ hop ∈ hops, hop.cfg.srcEnable = false ∧ hop.cfg.sinkEnable = false) (n : Nat)
    (s : Segments) (h : Carries n s) (out : List Byte) (hrun : runPath hops s.frame = some out) :
    ∃ s', Carries (n + hops.length) s' ∧ out = s'.frame := by
  induction hops generalizing n s with
  | nil => exact ⟨s, h, (Option.some.inj hrun).symm⟩
  | cons hop hops ih =>
      obtain ⟨hsrc, hk⟩ := htransit hop List.mem_cons_self
      rw [runPath] at hrun
      obtain ⟨next, hf, hrun⟩ := Option.bind_eq_some_iff.mp hrun
      have ha := h.admissible hop next hf
      rw [forward_frame hop s (h.accepted ha) hk] at hf
      rw [← Option.some.inj hf] at hrun
      obtain ⟨s', hs', hout⟩ := ih (fun hop' hm => htransit hop' (List.mem_cons_of_mem _ hm)) (n + 1)
        (hop.effect s) (carries_transit hop n s hsrc h) hrun
      refine ⟨s', ?_, hout⟩
      rw [List.length_cons, Nat.add_comm hops.length, ← Nat.add_assoc]
      exact hs'

/-- A UDP or TCP packet that crossed a source and transit nodes, and the report
that a sink made of it. -/
structure Journey where
  packet : Datagram
  path : IntPath
  sink : Hop
  isSink : sink.cfg.sinkEnable = true
  report : List Byte
  emitted : (runPath path.hops packet.frame).bind sink.forward = some report

/-- The number of nodes that the collector finds in a report: the number of
words has eight bits. A sink that is a source itself starts it again. -/
def Journey.metaCnt (j : Journey) : Nat :=
  if j.sink.cfg.srcEnable then 0 else 6 * j.path.hops.length % 256 / 6

theorem Journey.report_eq (j : Journey) : ∃ s, Carries j.path.hops.length s ∧
    Admissible j.path.hops.length ∧
    j.report = reportFrame j.sink.arrival (sinkParts j.sink.cfg j.sink.reg1 s) := by
  obtain ⟨frame, hrun, hsink⟩ := Option.bind_eq_some_iff.mp j.emitted
  obtain ⟨hsrc, hk⟩ := j.path.isSource
  rw [IntPath.hops, runPath, forward_frame j.path.source j.packet.toSegments j.packet.accepted hk,
    Option.bind_some] at hrun
  obtain ⟨s, hs, rfl⟩ := carries_run j.path.transits j.path.isTransit 1 _
    (carries_source j.path.source j.packet hsrc) frame hrun
  rw [Nat.add_comm] at hs
  have ha := hs.admissible j.sink j.report hsink
  refine ⟨s, hs, ha, ?_⟩
  rw [forward_sink_parts j.sink s (hs.accepted ha) j.isSink] at hsink
  exact (Option.some.inj hsink).symm

theorem words_eq (n : Nat) (h : Admissible n) :
    ((3 + 6 * BitVec.ofNat 8 n : BitVec 8).toNat - 3) / (6 : BitVec 5).toNat = 6 * n % 256 / 6 := by
  rw [shimLen_toNat]
  rw [Admissible] at h
  have hsix : (6 : BitVec 5).toNat = 6 := rfl
  rw [hsix]
  omega

theorem Journey.influxOf_report (j : Journey) (buffer : List Byte) :
    (influxOf (recvfrom j.report buffer)).hopMetaLen ≠ 0 ∧
      metaCntOf (influxOf (recvfrom j.report buffer)) = j.metaCnt := by
  obtain ⟨s, hs, ha, hreport⟩ := j.report_eq
  obtain ⟨shim, header, hint, hlen, -, hhop⟩ := hs.counted
  have hinflux : influxOf (recvfrom j.report buffer) = reported j.sink s := by
    have heth : ∀ e : Ethernet, (ethernetCodec.encode e).length = 14 := ethernetCodec.encode_length
    have hsize : intInfluxCodec.size = 36 := rfl
    have hlong : 50 ≤ j.report.length := by
      rw [hreport, reportFrame, ← encode_asInflux, List.length_append, List.length_append, heth,
        Codec.encode_length, hsize]
      omega
    rw [influxOf_recvfrom j.report buffer hlong, influxOf, hreport, reportFrame, ← encode_asInflux,
      List.drop_left' (heth _), List.take_left' (Codec.encode_length _ _)]
    exact intInfluxCodec.decode_encode _
  rw [hinflux, Journey.metaCnt]
  by_cases hsrc : j.sink.cfg.srcEnable = true
  · obtain ⟨hsix, hzero⟩ := reported_meta_source j.sink s hsrc
    rw [metaCntOf, hsix, hzero, if_pos hsrc]
    exact ⟨by decide, rfl⟩
  · rw [Bool.not_eq_true] at hsrc
    obtain ⟨hdiv, hcnt⟩ := reported_meta j.sink s shim header hint hsrc
      (hlen ▸ (admissible_iff _).mpr ha)
    refine ⟨hdiv.mpr (by rw [hhop]; decide), ?_⟩
    rw [metaCntOf, hcnt, hlen, hhop, words_eq _ ha, hsrc]
    rfl

theorem bind_pure_eq_error {α β : Type} (x : Except Fault α) (f : α → β) (e : Fault) :
    (x >>= fun a => pure (f a)) = .error e ↔ x = .error e := by
  cases x with
  | error e' =>
      constructor
      · intro h
        cases h
        rfl
      · intro h
        cases h
        rfl
  | ok a => exact iff_of_false (fun h => by cases h) (fun h => by cases h)

/-- The loop stays in the table exactly when every report that it processes
announces less nodes than the table has entries. -/
theorem table_kept_iff (opt : Options) (st : State) (buffer : List Byte) (h : buffer.length = pktBufSize)
    (journeys : List Journey) :
    loopProccess opt st buffer (journeys.map Journey.report) ≠ .error .indexOutOfRange ↔
      ∀ j ∈ journeys, j.metaCnt < maxNodes := by
  induction journeys generalizing st buffer with
  | nil => exact iff_of_true (fun hf => by cases hf) (List.forall_mem_nil _)
  | cons j journeys ih =>
      have hlen := recvfrom_length j.report buffer h
      obtain ⟨hhop, hcnt⟩ := j.influxOf_report buffer
      rw [List.map_cons, loopProccess, List.forall_mem_cons, processPacket_buffer opt st _ hlen,
        if_neg hhop, hcnt]
      by_cases hlt : j.metaCnt < maxNodes
      · have hrest := ih { (recorded opt st (recvfrom j.report buffer)).2 with pktCnt := st.pktCnt + 1 }
          (recvfrom j.report buffer) hlen
        rw [if_pos hlt, and_iff_right hlt, ← hrest]
        exact not_congr (bind_pure_eq_error _ _ _)
      · rw [if_neg hlt]
        exact iff_of_false (fun hne => hne rfl) (fun hall => hlt hall.1)

theorem exists_journey (d : Datagram) (hint : d.int = none) (path : IntPath)
    (h : path.hops.length ≤ 84) (sink : Hop) (hk : sink.cfg.sinkEnable = true) :
    ∃ j : Journey, j.packet = d ∧ j.path = path ∧ j.sink = sink := by
  obtain ⟨csum, hrun⟩ := T4p4s.Counters.runPath_delivers d hint path (by omega)
  have hacc := carrying_accepted d path.seq csum (onBoard path.hops)
    (admissible_of_le _ (by rw [onBoard_length]; exact h))
  have hemitted := (congrArg (·.bind sink.forward) hrun).trans (forward_sink_parts sink _ hacc hk)
  exact ⟨⟨d, path, sink, hk, _, hemitted⟩, rfl, rfl, rfl⟩

theorem table_kept_sample : ∃ j : Journey, j.path = IntPath.sample 2 ∧
    loopProccess sampleOptions State.initial (List.replicate pktBufSize 0) ([j].map Journey.report) ≠
      .error .indexOutOfRange := by
  obtain ⟨j, -, hpath, hsink⟩ :=
    exists_journey sampleDatagram rfl (IntPath.sample 2) (by decide) sampleSink rfl
  refine ⟨j, hpath, ?_⟩
  rw [table_kept_iff sampleOptions State.initial _ List.length_replicate [j], List.forall_mem_singleton,
    Journey.metaCnt, hpath, hsink]
  decide

theorem table_left_sample : ∃ j : Journey, j.packet = sampleDatagram ∧ j.path = IntPath.sample 9 ∧
    j.sink = sampleSink ∧
    loopProccess sampleOptions State.initial (List.replicate pktBufSize 0) [j.report] =
      .error .indexOutOfRange := by
  obtain ⟨j, hpacket, hpath, hsink⟩ :=
    exists_journey sampleDatagram rfl (IntPath.sample 9) (by decide) sampleSink rfl
  refine ⟨j, hpacket, hpath, hsink, ?_⟩
  obtain ⟨hhop, hcnt⟩ := j.influxOf_report (List.replicate pktBufSize 0)
  have hten : ¬ j.metaCnt < maxNodes := by
    rw [Journey.metaCnt, hpath, hsink]
    decide
  rw [loopProccess, processPacket_buffer _ _ _ (recvfrom_length _ _ List.length_replicate), if_neg hhop, hcnt,
    if_neg hten]
  rfl

end IntPlatform.EndToEnd.JitterBounds
