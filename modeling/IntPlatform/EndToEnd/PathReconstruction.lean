import IntPlatform.Collector.Outcome
import IntPlatform.T4p4s.Counters
import IntPlatform.T4p4s.SinkEffect
import Mathlib.Data.List.Palindrome

namespace IntPlatform.EndToEnd.PathReconstruction

open Library.Formats T4p4s.HeaderTypes T4p4s.Parsing T4p4s.Controls T4p4s.Switch T4p4s.Effects
open T4p4s.Path T4p4s.Carrying T4p4s.SinkEffect Collector.Records Collector.ProcessPacket
open Collector.Outcome

def ingressTime (hop : Hop) : BitVec 64 :=
  hop.arrival.md.ingressTstampSystemH ++ hop.arrival.md.ingressTstampSystemL

def egressTime (hop : Hop) : BitVec 64 := hop.arrival.egressTstampH ++ hop.arrival.egressTstampL

def stamps (hop : Hop) : BitVec 64 × BitVec 64 := (ingressTime hop, egressTime hop)

def hopEntry (i : Nat) (hop : Hop) : BitVec 8 × BitVec 64 × BitVec 64 :=
  (BitVec.ofNat 8 i, egressTime hop - ingressTime hop, egressTime hop)

/-- The record gives the origin, the delay and the hops of the path, in the
order in which the packet passed them. -/
structure Reconstructs (path : IntPath) (sink : Hop) (record : TelemetricHdr) : Prop where
  origTs : record.origTs = ingressTime path.source
  delay : record.delay = ingressTime sink - ingressTime path.source
  hops : ∃ records last, record.nodeMeta = records ++ [last] ∧
    records.map hopOf = path.hops.mapIdx hopEntry

def PathReconstructed (d : Segments) (path : IntPath) (sink : Hop) (opt : Options) (st : State)
    (buffer : List Byte) : Prop :=
  ∃ frame report record st', runPath path.hops d.frame = some frame ∧
    sink.forward frame = some report ∧
    processPacket opt st (recvfrom report buffer) = .ok (record, st') ∧
    Reconstructs path sink record

def sampleOptions : Options := ⟨1, 0, 1, 1⟩

def sampleSink : Hop := ⟨⟨false, true, 3⟩, ⟨false, 0⟩, sampleArrival 140 150⟩

def asMeta (m : NodeMeta) : IntMeta where
  switchId := be32.swap m.switchId
  ingressPortId := be16.swap m.ingressPortId
  egressPortId := be16.swap m.egressPortId
  ingressTstamp := be64.swap (m.ingressTstampH ++ m.ingressTstampL)
  egressTstamp := be64.swap (m.egressTstampH ++ m.egressTstampL)

def asInflux (h : Influx) : IntInflux where
  srcAddr := be32.swap h.srcAddr
  dstAddr := be32.swap h.dstAddr
  ingressPortId := be16.swap h.ingressPortId
  egressPortId := be16.swap h.egressPortId
  metaLen := h.metaLen
  hopMetaLen := h.resv1 ++ h.hopMetaLen
  rsvd1 := (h.rsvd2.extractLsb' 8 8, h.rsvd2.extractLsb' 0 8)
  ndkTstamp := be64.swap (h.ndkTstampH ++ h.ndkTstampL)
  delay := be64.swap (h.delayH ++ h.delayL)
  seq := be32.swap h.seq

theorem le16_swap (v : BitVec 16) : le16.encode (be16.swap v) = be16.encode v := encode_swap be16 v

theorem le32_swap (v : BitVec 32) : le32.encode (be32.swap v) = be32.encode v := encode_swap be32 v

theorem le64_swap (h l : BitVec 32) :
    le64.encode (be64.swap (h ++ l)) = be32.encode h ++ be32.encode l :=
  (encode_swap be64 _).trans (glue_encode be32 be32 h l)

theorem encode_asMeta (m : NodeMeta) : intMetaCodec.encode (asMeta m) = nodeMetaCodec.encode m := by
  simp only [asMeta, intMetaCodec, along, pair, Equiv.coe_fn_symm_mk, le16_swap, le32_swap, le64_swap]
  simp only [nodeMetaCodec, intSwitchIdCodec, intPortIdsCodec, intIngressTstampCodec,
    intEgressTstampCodec, along, pair, Equiv.coe_fn_symm_mk, List.append_assoc]

theorem encode_asInflux (h : Influx) : intInfluxCodec.encode (asInflux h) = influxCodec.encode h := by
  simp only [asInflux, intInfluxCodec, along, pair, Equiv.coe_fn_symm_mk, le16_swap, le32_swap, le64_swap]
  simp only [influxCodec, along, pair, Equiv.coe_fn_symm_mk, List.append_assoc]
  rfl

theorem stackBytes_eq (stack : List NodeMeta) :
    stackBytes stack = (stack.map asMeta).flatMap intMetaCodec.encode := by
  rw [stackBytes, List.flatMap_map]
  congr 1
  funext m
  exact (encode_asMeta m).symm

theorem hopOfNode_asMeta (i : Nat) (hop : Hop) :
    hopOfNode i (asMeta hop.nodeMeta) = hopEntry i hop := by
  have hi : ntoh64 (asMeta hop.nodeMeta).ingressTstamp = ingressTime hop :=
    (ntoh64_eq_swap _).trans (swap_swap be64 _)
  have he : ntoh64 (asMeta hop.nodeMeta).egressTstamp = egressTime hop :=
    (ntoh64_eq_swap _).trans (swap_swap be64 _)
  rw [hopOfNode, hi, he, hopEntry]

theorem metaCnt_carrying (n : Nat) (h : n < maxNodes) :
    ((3 + 6 * BitVec.ofNat 8 n - 3 : BitVec 8) / (0#3 ++ 6#5)).toNat = n := by
  have hall : ∀ n < 10, ((3 + 6 * BitVec.ofNat 8 n - 3 : BitVec 8) / (0#3 ++ 6#5)).toNat = n := by
    decide
  exact hall n h

def nodesOf (hops : List Hop) : List IntMeta := hops.map fun hop => asMeta hop.nodeMeta

theorem stackBytes_onBoard (hops : List Hop) :
    stackBytes (onBoard hops) = (nodesOf hops.reverse).flatMap intMetaCodec.encode := by
  rw [stackBytes_eq, onBoard, nodesOf, ← List.map_reverse, List.map_map]
  rfl

theorem nodesOf_hops (hops : List Hop) : (nodesOf hops).mapIdx hopOfNode = hops.mapIdx hopEntry := by
  rw [nodesOf, map_mapIdx]
  simp only [hopOfNode_asMeta]

theorem mapIdx_hopEntry (l l' : List Hop) :
    l.mapIdx hopEntry = l'.mapIdx hopEntry ↔ l.map stamps = l'.map stamps := by
  have hs (i : Nat) : stamps = (fun e : BitVec 8 × BitVec 64 × BitVec 64 => (e.2.2 - e.2.1, e.2.2)) ∘
      hopEntry i := by
    funext hop
    have h : ingressTime hop = egressTime hop - (egressTime hop - ingressTime hop) := by bv_omega
    exact Prod.ext h rfl
  have he (i : Nat) : hopEntry i = (fun t : BitVec 64 × BitVec 64 =>
      (BitVec.ofNat 8 i, t.2 - t.1, t.2)) ∘ stamps := rfl
  constructor
  · intro h
    apply List.ext_getElem?
    intro i
    have hi := congrArg (·[i]?) h
    simp only [List.getElem?_mapIdx] at hi
    rw [List.getElem?_map, List.getElem?_map, hs i, ← Option.map_map, hi, Option.map_map]
  · intro h
    apply List.ext_getElem?
    intro i
    have hi := congrArg (·[i]?) h
    simp only [List.getElem?_map] at hi
    rw [List.getElem?_mapIdx, List.getElem?_mapIdx, he i, ← Option.map_map, hi, Option.map_map]

theorem and_mask_eq_self (v : BitVec 64) : v &&& 0x0000ffffffffffff = v ↔ v.toNat < 2 ^ 48 := by
  have hmask : (0x0000ffffffffffff : BitVec 64).toNat = 2 ^ 48 - 1 := rfl
  rw [← BitVec.toNat_inj, BitVec.toNat_and, hmask, Nat.and_two_pow_sub_one_eq_mod]
  omega

theorem reverse_cons (path : IntPath) : ∃ last earlier, path.hops.reverse = last :: earlier := by
  apply List.exists_cons_of_ne_nil
  rw [Ne, List.reverse_eq_nil_iff]
  exact List.cons_ne_nil _ _

theorem ingressTime_last (path : IntPath) (last : Hop) (earlier : List Hop)
    (hrev : path.hops.reverse = last :: earlier) (hpal : (path.hops.map stamps).Palindrome) :
    ingressTime last = ingressTime path.source := by
  have h := hpal.reverse_eq
  rw [← List.map_reverse, hrev] at h
  exact congrArg Prod.fst (List.cons.inj h).1

section Record

variable (d : Datagram) (seq csum : BitVec 16) (hops : List Hop) (a : Arrival)

def loaded : IntInflux := asInflux (reportHeader a (carrying d.toSegments seq (onBoard hops) csum))

def reportFront : List Byte :=
  ethernetCodec.encode { d.ethernet with etherType := 0xffff } ++
    (intInfluxCodec.encode (loaded d seq csum hops a) ++
      (nodesOf hops.reverse).flatMap intMetaCodec.encode)

theorem reportFrame_carrying :
    reportFrame a (carrying d.toSegments seq (onBoard hops) csum) =
      reportFront d seq csum hops a ++ d.payload := by
  rw [reportFrame, reportFront, loaded, encode_asInflux, ← stackBytes_onBoard, List.append_assoc,
    List.append_assoc]
  rfl

theorem reportFront_length : (reportFront d seq csum hops a).length = 50 + 24 * hops.length := by
  have heth : ethernetCodec.size = 14 := rfl
  have hinflux : intInfluxCodec.size = 36 := rfl
  rw [reportFront, ← stackBytes_onBoard, List.length_append, List.length_append, Codec.encode_length,
    Codec.encode_length, T4p4s.Counters.stackBytes_length, onBoard_length, heth, hinflux]
  omega

theorem loaded_metaCnt (h : hops.length < maxNodes) :
    ((loaded d seq csum hops a).metaLen / (loaded d seq csum hops a).hopMetaLen).toNat =
      hops.length := by
  rw [← onBoard_length hops] at h ⊢
  exact metaCnt_carrying _ h

theorem loaded_hopMetaLen : (loaded d seq csum hops a).hopMetaLen ≠ 0 :=
  show (0#3 ++ 6#5 : BitVec 8) ≠ 0 by decide

theorem loaded_time : ntoh64 (loaded d seq csum hops a).ndkTstamp =
    a.md.ingressTstampSystemH ++ a.md.ingressTstampSystemL :=
  (ntoh64_eq_swap _).trans (swap_swap be64 _)

end Record

section Path

variable (d : Datagram) (hint : d.int = none) (path : IntPath) (hlt : path.hops.length < maxNodes)
  (sink : Hop) (hsink : sink.cfg.srcEnable = false ∧ sink.cfg.sinkEnable = true)
  (opt : Options) (st : State) (buffer : List Byte)

include hint hlt hsink

theorem record_of_path (last : Hop) (earlier : List Hop) (hrev : path.hops.reverse = last :: earlier) :
    ∃ frame report hdr st' records final, runPath path.hops d.frame = some frame ∧
      sink.forward frame = some report ∧
      processPacket opt st (recvfrom report buffer) = .ok (cutTimestamps opt hdr, st') ∧
      hdr.origTs = ingressTime last ∧
      hdr.delay = ingressTime sink - ingressTime last ∧
      hdr.nodeMeta = records ++ [final] ∧
      records.map hopOf = path.hops.reverse.mapIdx hopEntry := by
  have hten : path.hops.length < 10 := hlt
  obtain ⟨csum, hrun⟩ := T4p4s.Counters.runPath_delivers d hint path (by omega)
  have hacc := carrying_accepted d path.seq csum (onBoard path.hops)
    (admissible_of_le _ (by rw [onBoard_length]; omega))
  have hforward := forward_sink sink _ hacc hsink.1 hsink.2
  rw [reportFrame_carrying] at hforward
  obtain ⟨rest, hbuffer⟩ := recvfrom_append (reportFront d path.seq csum path.hops sink.arrival)
    d.payload buffer (by rw [reportFront_length, pktBufSize]; omega)
  have hnodes : nodesOf path.hops.reverse = asMeta last.nodeMeta :: nodesOf earlier := by
    rw [hrev]
    rfl
  have hlen : (asMeta last.nodeMeta :: nodesOf earlier).length = path.hops.length := by
    rw [← hnodes, nodesOf, List.length_map, List.length_reverse]
  obtain ⟨hdr, st', records, final, hp, ho, -, hdelay, hmeta, hk⟩ := processPacket_nodes opt st
    (ethernetCodec.encode { d.ethernet with etherType := 0xffff }) rest
    (loaded d path.seq csum path.hops sink.arrival) (asMeta last.nodeMeta) (nodesOf earlier)
    (ethernetCodec.encode_length _) (loaded_hopMetaLen d path.seq csum path.hops sink.arrival)
    ((loaded_metaCnt d path.seq csum path.hops sink.arrival hlt).trans hlen.symm) (hlen ▸ hlt)
  have hlast : ntoh64 (asMeta last.nodeMeta).ingressTstamp = ingressTime last :=
    (ntoh64_eq_swap _).trans (swap_swap be64 _)
  rw [hlast] at ho hdelay
  rw [loaded_time] at hdelay
  rw [← hnodes] at hp hk
  refine ⟨_, _, hdr, st', records, final, hrun, hforward, ?_, ho, hdelay, hmeta, ?_⟩
  · rw [hbuffer, ← hp, reportFront, List.append_assoc, List.append_assoc]
  · rw [hk, nodesOf_hops]

theorem palindrome_of_reconstructed
    (h : PathReconstructed d.toSegments path sink opt st buffer) :
    (path.hops.map stamps).Palindrome ∧
      (opt.tstmp = 1 → (ingressTime path.source).toNat < 2 ^ 48) := by
  obtain ⟨last, earlier, hrev⟩ := reverse_cons path
  obtain ⟨frame, report, hdr, st', records, final, hrun, hforward, hp, ho, -, hmeta, hk⟩ :=
    record_of_path d hint path hlt sink hsink opt st buffer last earlier hrev
  obtain ⟨frame', report', record, st'', hrun', hforward', hp', hr⟩ := h
  rw [hrun] at hrun'
  cases hrun'
  rw [hforward] at hforward'
  cases hforward'
  rw [hp] at hp'
  cases hp'
  obtain ⟨records', final', hmeta', hk'⟩ := hr.hops
  rw [cutTimestamps_nodeMeta, hmeta] at hmeta'
  obtain ⟨rfl, -⟩ := List.append_singleton_inj.mp hmeta'
  have hpal : (path.hops.map stamps).Palindrome := by
    rw [List.Palindrome.iff_reverse_eq, ← List.map_reverse, ← mapIdx_hopEntry, ← hk, hk']
  refine ⟨hpal, ?_⟩
  intro ht
  have horig := hr.origTs
  rw [cutTimestamps, if_pos ht] at horig
  rw [← ingressTime_last path last earlier hrev hpal] at horig ⊢
  rw [← and_mask_eq_self, ← ho]
  exact horig.trans ho.symm

theorem reconstructed_of_palindrome (hpal : (path.hops.map stamps).Palindrome)
    (hcut : opt.tstmp = 1 → (ingressTime path.source).toNat < 2 ^ 48) :
    PathReconstructed d.toSegments path sink opt st buffer := by
  obtain ⟨last, earlier, hrev⟩ := reverse_cons path
  obtain ⟨frame, report, hdr, st', records, final, hrun, hforward, hp, ho, hdelay, hmeta, hk⟩ :=
    record_of_path d hint path hlt sink hsink opt st buffer last earlier hrev
  have hlast := ingressTime_last path last earlier hrev hpal
  rw [hlast] at ho hdelay
  refine ⟨frame, report, cutTimestamps opt hdr, st', hrun, hforward, hp, ?_, ?_, records, final, ?_, ?_⟩
  · by_cases ht : opt.tstmp = 1
    · rw [cutTimestamps, if_pos ht]
      exact (congrArg (· &&& _) ho).trans ((and_mask_eq_self _).mpr (hcut ht))
    · rw [cutTimestamps, if_neg ht, ho]
  · rw [cutTimestamps_delay, hdelay]
  · rw [cutTimestamps_nodeMeta, hmeta]
  · rw [List.Palindrome.iff_reverse_eq, ← List.map_reverse, ← mapIdx_hopEntry] at hpal
    rw [hk, hpal]

end Path

/-- The collector reconstructs a path exactly when the timestamps along it read
the same in both directions (and survive the 48-bit mode): the metadata of a
node goes in front of that of its predecessors. -/
theorem path_reconstructed_iff (d : Datagram) (hint : d.int = none) (path : IntPath)
    (hlt : path.hops.length < maxNodes) (sink : Hop)
    (hsink : sink.cfg.srcEnable = false ∧ sink.cfg.sinkEnable = true) (opt : Options) (st : State)
    (buffer : List Byte) :
    PathReconstructed d.toSegments path sink opt st buffer ↔
      (path.hops.map stamps).Palindrome ∧
        (opt.tstmp = 1 → (ingressTime path.source).toNat < 2 ^ 48) :=
  ⟨palindrome_of_reconstructed d hint path hlt sink hsink opt st buffer,
    fun ⟨hpal, hcut⟩ => reconstructed_of_palindrome d hint path hlt sink hsink opt st buffer hpal hcut⟩

theorem sampleSource_isSource :
    sampleSource.cfg.srcEnable = true ∧ sampleSource.cfg.sinkEnable = false := ⟨rfl, rfl⟩

def symmetricPath : IntPath where
  source := sampleSource
  transits := [sampleTransit, { sampleTransit with arrival := sampleSource.arrival }]
  isSource := sampleSource_isSource
  isTransit := List.forall_mem_cons.mpr ⟨⟨rfl, rfl⟩, List.forall_mem_singleton.mpr ⟨rfl, rfl⟩⟩

theorem path_reconstructed_sample :
    PathReconstructed sampleDatagram.toSegments symmetricPath sampleSink sampleOptions
      State.initial [] :=
  (path_reconstructed_iff sampleDatagram rfl symmetricPath (by decide) sampleSink ⟨rfl, rfl⟩
    sampleOptions State.initial []).mpr
    ⟨.of_reverse_eq rfl, fun h => absurd h (by decide)⟩

/-- Two nodes are enough for the collector to report them in the wrong order. -/
theorem path_reversed_sample :
    ¬ PathReconstructed sampleDatagram.toSegments (IntPath.sample 1) sampleSink sampleOptions
      State.initial [] := by
  intro h
  have hpal := (palindrome_of_reconstructed sampleDatagram rfl (IntPath.sample 1) (by decide)
    sampleSink ⟨rfl, rfl⟩ sampleOptions State.initial [] h).1.reverse_eq
  exact absurd hpal (by decide)

end IntPlatform.EndToEnd.PathReconstruction
