import IntPlatform.Collector.Fields
import IntPlatform.Collector.History
import IntPlatform.Library.WidenedCounter

namespace IntPlatform.Collector.SequenceWrap

open Library.Formats Library.Mealy Library.WidenedCounter
open Records ProcessPacket Outcome Buffers Loop Runs Fields FlowIsolation History

variable {slots : Nat}

def seqOf (frame : List Byte) : BitVec 32 := ntohl (influxOf frame).seq

def withSeq (frame : List Byte) (seq : BitVec 32) : List Byte :=
  frame.take 46 ++ (be32.encode seq ++ frame.drop 50)

def shifted (k : BitVec 32) (frame : List Byte) : List Byte := withSeq frame (seqOf frame + k)

/-- The report of a TCP segment between two addresses. A number of 0 would tell
the collector that it is UDP. -/
structure TcpReport (pair : BitVec 32 × BitVec 32) (frame : List Byte) : Prop where
  whole : 50 ≤ frame.length
  pair : addresses (influxOf frame) = pair
  numbered : seqOf frame ≠ 0

section Frame

variable (frame : List Byte) (h : 50 ≤ frame.length) (seq : BitVec 32)

include h

theorem withSeq_length : (withSeq frame seq).length = frame.length := by
  have hsize : be32.size = 4 := rfl
  rw [withSeq, List.length_append, List.length_append, Codec.encode_length, List.length_take,
    List.length_drop, hsize]
  omega

theorem slice_withSeq (i n : Nat) (hin : i + n ≤ 46) : slice (withSeq frame seq) i n = slice frame i n := by
  have hlen : (frame.take 46).length = 46 := by
    rw [List.length_take]
    omega
  rw [slice, slice, withSeq, List.drop_append_of_le_length (by omega), List.take_append_of_le_length,
    List.drop_take, List.take_take, Nat.min_eq_left (by omega)]
  rw [List.length_drop]
  omega

theorem slice_withSeq_seq : slice (withSeq frame seq) 46 4 = be32.encode seq := by
  have hlen : (frame.take 46).length = 46 := by
    rw [List.length_take]
    omega
  have hbytes : (be32.encode seq).length = 4 := be32.encode_length seq
  rw [slice, withSeq, List.drop_left' hlen, List.take_left' hbytes]

theorem influxOf_withSeq :
    influxOf (withSeq frame seq) = { influxOf frame with seq := be32.swap seq } := by
  simp only [influxOf_eq, slice_withSeq frame h seq, slice_withSeq_seq frame h seq, Nat.reduceAdd,
    Nat.reduceLeDiff]
  rfl

theorem seqOf_withSeq : seqOf (withSeq frame seq) = seq := by
  rw [seqOf, influxOf_withSeq frame h seq]
  exact swap_swap be32 seq

end Frame

theorem shifted_tcpReport (pair : BitVec 32 × BitVec 32) (k : BitVec 32) (frame : List Byte)
    (h : TcpReport pair frame) (hk : seqOf frame + k ≠ 0) : TcpReport pair (shifted k frame) := by
  have haddr (influx : IntInflux) (seq : BitVec 32) :
      addresses { influx with seq := seq } = addresses influx := rfl
  refine ⟨?_, ?_, ?_⟩
  · rw [shifted, withSeq_length frame h.whole]
    exact h.whole
  · rw [shifted, influxOf_withSeq frame h.whole, haddr]
    exact h.pair
  · rw [shifted, seqOf_withSeq frame h.whole]
    exact hk

section Run

variable (opt : Options) (st : Globals slots) (buffer : List Byte)

theorem influxOf_buffersOf (frames : List (List Byte)) (h : ∀ f ∈ frames, 50 ≤ f.length) :
    (buffersOf buffer frames).map influxOf = frames.map influxOf := by
  induction frames generalizing buffer with
  | nil => rfl
  | cons f frames ih =>
      rw [buffersOf, List.map_cons, List.map_cons, influxOf_recvfrom f buffer (h f List.mem_cons_self),
        ih _ fun g hg => h g (List.mem_cons_of_mem f hg)]

theorem outputs_reordering (key : BitVec 64) (buffers : List (List Byte))
    (hkey : ∀ b ∈ buffers, mapKey (influxOf b) = key) (hnz : ∀ b ∈ buffers, rawSeq (influxOf b) ≠ 0) :
    ((decoder opt).outputs st buffers).map TelemetricHdr.reordering =
      gapsFrom (st.flowMap key).seq (buffers.map fun b => rawSeq (influxOf b)) := by
  induction buffers generalizing st with
  | nil => rfl
  | cons b buffers ih =>
      obtain ⟨hk, hkey⟩ := List.forall_mem_cons.mp hkey
      obtain ⟨hb, hnz⟩ := List.forall_mem_cons.mp hnz
      have hmap : ((decoder opt).next st b).flowMap = _ := recorded_flowMap opt st b
      have hseq : (((decoder opt).next st b).flowMap key).seq = rawSeq (influxOf b) := by
        rw [hmap, hk, Function.update_self]
        exact if_neg hb
      rw [Machine.outputs, List.map_cons, ih _ hkey hnz, hseq, out_reordering, if_neg hb, hk]
      rfl

end Run

theorem tail_gapsFrom {v : Nat} (prev : BitVec v) (cs : List (BitVec v)) :
    (gapsFrom prev cs).tail = gaps cs := by
  cases cs <;> rfl

def Divided (slots : Nat) (h : IntInflux) : Prop := h.hopMetaLen ≠ 0 ∧ metaCntOf h < slots

theorem divided_seq (h : IntInflux) (seq : BitVec 32) :
    Divided slots { h with seq := seq } ↔ Divided slots h := Iff.rfl

theorem processable_iff (b : List Byte) : Processable slots b ↔ Divided slots (influxOf b) :=
  ⟨fun h => ⟨h.divisible, h.fits⟩, fun h => ⟨h.1, h.2⟩⟩

theorem processable_shifted (k : BitVec 32) (frame : List Byte) (h : 50 ≤ frame.length)
    (hp : Processable slots frame) : Processable slots (shifted k frame) := by
  rwa [processable_iff, shifted, influxOf_withSeq frame h, divided_seq, ← processable_iff]

section Reports

variable (opt : Options) (st : Globals slots) (buffer : List Byte)

theorem forall_buffersOf (frames : List (List Byte)) (h : ∀ f ∈ frames, 50 ≤ f.length)
    (P : IntInflux → Prop) :
    (∀ b ∈ buffersOf buffer frames, P (influxOf b)) ↔ ∀ f ∈ frames, P (influxOf f) := by
  have hmap := influxOf_buffersOf buffer frames h
  rw [← List.forall_mem_map, hmap, List.forall_mem_map]

variable (hbuf : buffer.length = pktBufSize) (pair : BitVec 32 × BitVec 32)

include hbuf

theorem loopProccess_whole (frames : List (List Byte)) (h : ∀ f ∈ frames, 50 ≤ f.length)
    (hp : ∀ f ∈ frames, Processable slots f) :
    loopProccess opt st buffer frames = .ok ((decoder opt).outputs st (buffersOf buffer frames)) := by
  refine (loopProccess_eq_ok opt st buffer frames hbuf _).mpr ⟨?_, rfl⟩
  simp only [processable_iff] at hp ⊢
  exact (forall_buffersOf buffer frames h (Divided slots)).mpr hp

theorem run_gaps (frames : List (List Byte)) (hframes : ∀ f ∈ frames, TcpReport pair f)
    (hp : ∀ f ∈ frames, Processable slots f) :
    ∃ records, loopProccess opt st buffer frames = .ok records ∧
      records.tail.map TelemetricHdr.reordering = gaps (frames.map fun f => (seqOf f).setWidth 64) := by
  have hwhole : ∀ f ∈ frames, 50 ≤ f.length := fun f hf => (hframes f hf).whole
  refine ⟨_, loopProccess_whole opt st buffer hbuf frames hwhole hp, ?_⟩
  have hkey : ∀ b ∈ buffersOf buffer frames, mapKey (influxOf b) = pair.2 ++ pair.1 := by
    rw [forall_buffersOf buffer frames hwhole fun h => mapKey h = pair.2 ++ pair.1]
    intro f hf
    rw [← (hframes f hf).pair]
    rfl
  have hnz : ∀ b ∈ buffersOf buffer frames, rawSeq (influxOf b) ≠ 0 := by
    rw [forall_buffersOf buffer frames hwhole fun h => rawSeq h ≠ 0]
    intro f hf hz
    apply (hframes f hf).numbered
    have hle : (32 : Nat) ≤ 64 := by decide
    have htoNat := congrArg BitVec.toNat hz
    rw [rawSeq, BitVec.toNat_setWidth_of_le hle] at htoNat
    exact BitVec.eq_of_toNat_eq htoNat
  have hseqs : (buffersOf buffer frames).map (fun b => rawSeq (influxOf b)) =
      frames.map fun f => (seqOf f).setWidth 64 := by
    have hmap := congrArg (List.map rawSeq) (influxOf_buffersOf buffer frames hwhole)
    rw [List.map_map, List.map_map] at hmap
    exact hmap
  rw [List.map_tail, outputs_reordering opt st _ _ hkey hnz, tail_gapsFrom, hseqs]

theorem run_shifted (k : BitVec 32) (frames : List (List Byte)) (hframes : ∀ f ∈ frames, TcpReport pair f)
    (hk : ∀ f ∈ frames, seqOf f + k ≠ 0) (hp : ∀ f ∈ frames, Processable slots f) :
    ∃ records', loopProccess opt st buffer (frames.map (shifted k)) = .ok records' ∧
      records'.tail.map TelemetricHdr.reordering =
        gaps (frames.map fun f => (seqOf f + k).setWidth 64) := by
  have hwhole : ∀ f ∈ frames, 50 ≤ f.length := fun f hf => (hframes f hf).whole
  have hframes' : ∀ f ∈ frames.map (shifted k), TcpReport pair f := by
    rw [List.forall_mem_map]
    exact fun f hf => shifted_tcpReport pair k f (hframes f hf) (hk f hf)
  have hp' : ∀ f ∈ frames.map (shifted k), Processable slots f := by
    rw [List.forall_mem_map]
    exact fun f hf => processable_shifted k f (hwhole f hf) (hp f hf)
  obtain ⟨records', hrun', hgaps'⟩ := run_gaps opt st buffer hbuf pair _ hframes' hp'
  refine ⟨records', hrun', ?_⟩
  rw [hgaps', List.map_map]
  congr 1
  apply List.map_congr_left
  intro f hf
  rw [Function.comp_apply, shifted, seqOf_withSeq f (hwhole f hf)]

/-- Both runs end without a fault, and adding k leaves the reordering behind the
first record as it is exactly when it takes all numbers over 2^32, or none. -/
theorem reordering_shift_iff (k : BitVec 32) (frames : List (List Byte))
    (hframes : ∀ f ∈ frames, TcpReport pair f) (hk : ∀ f ∈ frames, seqOf f + k ≠ 0)
    (hp : ∀ f ∈ frames, Processable slots f) :
    ∃ records records', loopProccess opt st buffer frames = .ok records ∧
      loopProccess opt st buffer (frames.map (shifted k)) = .ok records' ∧
      (records'.tail.map TelemetricHdr.reordering = records.tail.map TelemetricHdr.reordering ↔
        (∀ f ∈ frames, (seqOf f).toNat + k.toNat < 2 ^ 32) ∨
          ∀ f ∈ frames, 2 ^ 32 ≤ (seqOf f).toNat + k.toNat) := by
  obtain ⟨records, hrun, hgaps⟩ := run_gaps opt st buffer hbuf pair frames hframes hp
  obtain ⟨records', hrun', hgaps'⟩ := run_shifted opt st buffer hbuf pair k frames hframes hk hp
  have hiff := gaps_iff k (show 32 < 64 by decide) (frames.map seqOf)
  simp only [List.map_map, List.forall_mem_map, Wraps, Nat.not_le] at hiff
  refine ⟨records, records', hrun, hrun', ?_⟩
  rw [hgaps', hgaps]
  exact hiff

end Reports

def tcpReport (seq : BitVec 32) : Report :=
  { sampleReport 5000 100 with
    influx := { (sampleReport 5000 100).influx with seq := ntohl seq } }

theorem influxOf_frame (r : Report) : influxOf r.frame = r.influx := by
  rw [influxOf, Report.frame, List.drop_left' r.eth_length,
    List.take_left' (intInfluxCodec.encode_length r.influx), intInfluxCodec.decode_encode]

theorem frame_whole (r : Report) : 50 ≤ r.frame.length := by
  have hsize : intInfluxCodec.size = 36 := rfl
  rw [Report.frame, List.length_append, List.length_append, r.eth_length, Codec.encode_length, hsize]
  omega

theorem tcpReport_frame (seq : BitVec 32) (h : seq ≠ 0) :
    seqOf (tcpReport seq).frame = seq ∧ TcpReport (0x0100000a, 0x0200000a) (tcpReport seq).frame := by
  have hseq : seqOf (tcpReport seq).frame = seq := by
    rw [seqOf, influxOf_frame]
    exact swap_swap be32 seq
  refine ⟨hseq, frame_whole _, ?_, ?_⟩
  · rw [influxOf_frame]
    rfl
  · rw [hseq]
    exact h

def segments : List Report := [tcpReport 1000, tcpReport 2448]

def segmentFrames : List (List Byte) := segments.map Report.frame

theorem segmentFrames_reports : ∀ f ∈ segmentFrames, TcpReport (0x0100000a, 0x0200000a) f := by
  rw [segmentFrames, segments, List.map_cons, List.map_singleton, List.forall_mem_cons,
    List.forall_mem_singleton]
  exact ⟨(tcpReport_frame 1000 (by decide)).2, (tcpReport_frame 2448 (by decide)).2⟩

theorem seqOf_segmentFrames : segmentFrames.map seqOf = [1000, 2448] := by
  rw [segmentFrames, segments, List.map_cons, List.map_singleton, List.map_cons, List.map_singleton,
    (tcpReport_frame 1000 (by decide)).1, (tcpReport_frame 2448 (by decide)).1]

theorem segmentFrames_shift (k : BitVec 32) (hfirst : 1000 + k ≠ 0) (hsecond : 2448 + k ≠ 0) :
    ∀ f ∈ segmentFrames, seqOf f + k ≠ 0 := by
  have h : ∀ seq ∈ segmentFrames.map seqOf, seq + k ≠ 0 := by
    rw [seqOf_segmentFrames, List.forall_mem_cons, List.forall_mem_singleton]
    exact ⟨hfirst, hsecond⟩
  exact fun f hf => h (seqOf f) (List.mem_map_of_mem hf)

theorem segmentFrames_processable : ∀ f ∈ segmentFrames, Processable maxNodes f := by
  have h (seq : BitVec 32) : Processable maxNodes (tcpReport seq).frame := by
    rw [processable_iff, influxOf_frame]
    exact ⟨(tcpReport seq).divisible, lt_of_eq_of_lt (tcpReport seq).announced (tcpReport seq).fits⟩
  rw [segmentFrames, segments, List.map_cons, List.map_singleton, List.forall_mem_cons,
    List.forall_mem_singleton]
  exact ⟨h 1000, h 2448⟩

theorem reordering_shift_sample :
    ∃ records records',
      loopProccess ⟨1, 0, 1, 1⟩ State.initial (List.replicate pktBufSize 0) segmentFrames = .ok records ∧
      loopProccess ⟨1, 0, 1, 1⟩ State.initial (List.replicate pktBufSize 0)
        (segmentFrames.map (shifted 5)) = .ok records' ∧
      records'.tail.map TelemetricHdr.reordering = records.tail.map TelemetricHdr.reordering := by
  obtain ⟨records, records', hrun, hrun', hiff⟩ := reordering_shift_iff ⟨1, 0, 1, 1⟩ State.initial
    (List.replicate pktBufSize 0) List.length_replicate (0x0100000a, 0x0200000a) 5 segmentFrames
    segmentFrames_reports (segmentFrames_shift 5 (by decide) (by decide)) segmentFrames_processable
  refine ⟨records, records', hrun, hrun', hiff.mpr (.inl ?_)⟩
  have hsmall : ∀ seq ∈ segmentFrames.map seqOf, seq.toNat + (5 : BitVec 32).toNat < 2 ^ 32 := by
    rw [seqOf_segmentFrames]
    simp
  exact fun f hf => hsmall (seqOf f) (List.mem_map_of_mem hf)

/-- With 2^32 - 2048 added the second number is 400, and the packet seems to
come 2^32 numbers too early. -/
theorem reordering_wraps :
    (∀ f ∈ segmentFrames, TcpReport (0x0100000a, 0x0200000a) f ∧ seqOf f + 0xfffff800 ≠ 0) ∧
    ∃ records records',
      loopProccess ⟨1, 0, 1, 1⟩ State.initial (List.replicate pktBufSize 0) segmentFrames = .ok records ∧
      loopProccess ⟨1, 0, 1, 1⟩ State.initial (List.replicate pktBufSize 0)
        (segmentFrames.map (shifted 0xfffff800)) = .ok records' ∧
      records.tail.map TelemetricHdr.reordering = [1447] ∧
      records'.tail.map TelemetricHdr.reordering = [1447 - 2 ^ 32] := by
  have hk := segmentFrames_shift 0xfffff800 (by decide) (by decide)
  have hmap (g : BitVec 32 → BitVec 64) : segmentFrames.map (fun f => g (seqOf f)) = [g 1000, g 2448] := by
    have hseqs := congrArg (List.map g) seqOf_segmentFrames
    rwa [List.map_map] at hseqs
  obtain ⟨records, hrun, hgaps⟩ := run_gaps ⟨1, 0, 1, 1⟩ State.initial (List.replicate pktBufSize 0)
    List.length_replicate (0x0100000a, 0x0200000a) segmentFrames segmentFrames_reports
    segmentFrames_processable
  obtain ⟨records', hrun', hgaps'⟩ := run_shifted ⟨1, 0, 1, 1⟩ State.initial (List.replicate pktBufSize 0)
    List.length_replicate (0x0100000a, 0x0200000a) 0xfffff800 segmentFrames segmentFrames_reports hk
    segmentFrames_processable
  refine ⟨fun f hf => ⟨segmentFrames_reports f hf, hk f hf⟩, records, records', hrun, hrun', ?_, ?_⟩
  · rw [hgaps, hmap fun seq => seq.setWidth 64]
    rfl
  · rw [hgaps', hmap fun seq => (seq + 0xfffff800).setWidth 64]
    rfl

end IntPlatform.Collector.SequenceWrap
