import IntPlatform.P4c.PathStack
import IntPlatform.P4c.ReportLengths

namespace IntPlatform.P4c.PathDelivery

open Library.Formats Library.HeaderValidity Library.Countdown
open HeaderTypes Parsing Ingress NodeFields Effects Accounting SinkEffect IntRemoval ReportLengths HopLimit PathStack

variable {c : Constants} {n m : BitVec 16} (d : Datagram) (u : Udp) (path : IntPath c d.toSegments n m)
  (sink : Hop)

def withSink : List Hop := path.hops ++ [sink]

section Sink

variable {d u} (hl4 : d.l4 = .udp u) (hsink : IsSink sink) (hcon : sink.program.constants = c)

include hl4 hsink hcon

theorem reaches_sink :
    ∃ t shim h len csum, runPath path.hops d.frame = some t.frame ∧ t.Accepted ∧
      t.int = some (shim, h) ∧
      (h.hopInfo = exhausted c ↔ distance (exhausted c) n ≤ path.hops.length) ∧ t.l4 = .udp { u with len := len, csum := csum } ∧
      Stacked c d.toSegments n m path.hops (path.hops.take (distance (exhausted c) n)) t ∧
      Stacked c d.toSegments n m (withSink d path sink)
        ((withSink d path sink).take (distance (exhausted c) n)) (sink.effect t) := by
  obtain ⟨t, hrun, ht⟩ := path_stacks d path
  obtain ⟨shim, h, hint, hhop, -⟩ := ht.tracks.int
  have hd := iterate_eq_stop (exhausted c) n path.hops.length
  rw [← hhop] at hd
  obtain ⟨csum, htl4⟩ := ht.l4
  rw [hl4] at htl4
  exact ⟨t, shim, h, _, csum, hrun, ht.tracks.accepted, hint, hd, htl4, ht,
    transit_stacked sink hsink.source hcon path.hops t ht⟩

/-- The report on a packet that has crossed a path: the headers of the report in
front of the packet, with the metadata of the sink on top of those of the path. -/
theorem path_reported (act : SinkAction)
    (hsel : sink.tables.tableSinkConfig.select u.srcPort = some act) (r : ReportTarget)
    (hr : SinkAction.target act = some r) :
    ∃ inner : Segments,
      (runPath path.hops d.frame).bind sink.forward =
        some ((outer r inner.ipv4.totalLen
          (if path.hops.length < distance (exhausted c) n then switchId sink.tables.tbIntTransit else 0)
          sink.reportSeqNum sink.arrival.istd.ingressTimestamp).bytes ++ inner.frame) ∧
      Stacked c d.toSegments n m (withSink d path sink)
        ((withSink d path sink).take (distance (exhausted c) n)) inner := by
  obtain ⟨t, shim, h, len, csum, hrun, hacc, hint, hd, htl4, -, hstacked⟩ :=
    reaches_sink path sink hl4 hsink hcon
  have hf := forward_reported sink hsink t _ shim h htl4 hint hacc act hsel r hr
  have hknown : knownSwitchId sink.program sink.tables (some (shim, h)) =
      if path.hops.length < distance (exhausted c) n then switchId sink.tables.tbIntTransit else 0 := by
    rw [knownSwitchId, hcon]
    exact if_congr ((not_congr hd).trans Nat.not_le) rfl rfl
  obtain ⟨shim', h', -, hladen⟩ := laden_grown sink hsink t shim h hint
  have hinner : (deparsed false (sink.laden t)).emitted = sink.effect t := by rw [Hop.effect, hsink.source]
  have hlen : t.ipv4.totalLen + growthBytes sink h = (sink.effect t).ipv4.totalLen := by
    rw [← hinner]
    exact (congrArg (fun l : Laden => l.ipv4.totalLen) hladen).symm
  refine ⟨sink.effect t, ?_, hstacked⟩
  rw [hrun, Option.bind_some, hf, hlen, hinner, hknown]

/-- What a receiver gets behind a sink that takes INT off: the TOS byte of the
sender, but in front of the payload the metadata of the nodes before the sink,
and in the lengths also those of the sink. -/
theorem path_removed (hsel : sink.tables.tableSinkConfig.select u.srcPort = some .removeInt) :
    ∃ clean : Segments, (runPath path.hops d.frame).bind sink.forward = some clean.frame ∧
      clean.int = none ∧
      clean.ethernet = { d.ethernet with dstAddr := address d.ethernet.dstAddr (withSink d path sink) } ∧
      clean.ipv4 = { d.ipv4 with
        totalLen := d.ipv4.totalLen +
          grownBytes m ((withSink d path sink).take (distance (exhausted c) n)) - 20
        hdrChecksum := clean.ipv4.hdrChecksum } ∧
      (∃ csum, clean.l4 = .udp { u with len := clean.ipv4.totalLen - 20, csum := csum }) ∧
      clean.payload = stack m d.ethernet.dstAddr (path.hops.take (distance (exhausted c) n)) ++ d.payload ∧
      (clean.payload = d.payload ↔ ∀ hop ∈ path.hops.take (distance (exhausted c) n),
        chosenWords (hop.insertion m).fields = 0) := by
  obtain ⟨t, shim, h, len, csum, hrun, hacc, hint, -, htl4, ht, hstacked⟩ :=
    reaches_sink path sink hl4 hsink hcon
  obtain ⟨shim', hdscp, hf⟩ := forward_removed sink hsink t _ shim h htl4 hint hacc hsel
  have hinner : (deparsed false (sink.laden t)).emitted = sink.effect t := by rw [Hop.effect, hsink.source]
  have hshim := ht.shim
  rw [hint, Option.map_some, Option.some.injEq] at hshim
  have htos : shim'.dscp = d.ipv4.dscp := by
    rw [hdscp]
    exact congrArg Intl4Shim.dscp hshim
  have hether := hstacked.ethernet
  have hipv4 := hstacked.ipv4
  rw [← hinner] at hether hipv4
  have hdelivered := (congrArg (Option.bind · sink.forward) hrun).trans hf
  have hpayload : (sink.laden t).payload =
      stack m d.ethernet.dstAddr (path.hops.take (distance (exhausted c) n)) ++ d.payload :=
    (laden_payload sink t).trans ht.payload
  refine ⟨_, hdelivered, rfl, hether, ?_, ⟨_, rfl⟩, hpayload, ?_⟩
  · have hremoved (v : Udp) (l : Laden) :
        (deparsed false (removed v shim' l)).emitted.ipv4 =
          { (deparsed false l).emitted.ipv4 with
            dscp := shim'.dscp
            totalLen := (deparsed false l).emitted.ipv4.totalLen - 20
            hdrChecksum := (deparsed false (removed v shim' l)).emitted.ipv4.hdrChecksum } := rfl
    rw [hremoved, hipv4, htos]
  · rw [← stack_eq_nil_iff m d.ethernet.dstAddr, ← @List.append_left_eq_self _ _ d.payload, ← hpayload]
    rfl

end Sink

theorem path_reported_sample :
    ∃ (o : Outer) (inner : Segments),
      (runPath (samplePath 6 4).hops sampleDatagram.frame).bind
        (sampleSink (.sendReport sampleTarget)).forward = some (o.bytes ++ inner.frame) ∧
      o.fixedHeader.switchId = 9 ∧
      inner.payload.length = 3 * 24 + sampleDatagram.payload.length := by
  obtain ⟨inner, hrun, hinner⟩ := path_reported (d := sampleDatagram) (samplePath 6 4)
    (sampleSink (.sendReport sampleTarget)) rfl ⟨rfl, rfl⟩ rfl _ rfl sampleTarget rfl
  refine ⟨_, inner, hrun, rfl, ?_⟩
  rw [hinner.payload, List.length_append, stack_length]
  rfl

theorem path_removed_sample :
    ∃ clean : Segments, (runPath (samplePath 6 4).hops sampleDatagram.frame).bind
        (sampleSink .removeInt).forward = some clean.frame ∧
      clean.payload.length = 2 * 24 + sampleDatagram.payload.length := by
  obtain ⟨clean, hrun, -, -, -, -, hpayload, -⟩ := path_removed (d := sampleDatagram) (samplePath 6 4)
    (sampleSink .removeInt) rfl ⟨rfl, rfl⟩ rfl rfl
  refine ⟨clean, hrun, ?_⟩
  rw [hpayload, List.length_append, stack_length]
  rfl

end IntPlatform.P4c.PathDelivery
