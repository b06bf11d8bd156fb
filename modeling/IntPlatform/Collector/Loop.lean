import IntPlatform.Library.Mealy
import IntPlatform.Collector.Outcome

namespace IntPlatform.Collector.Loop

open Library.Formats Library.SlotTable Library.Mealy Records ProcessPacket Outcome

variable {slots : Nat}

/-- The records of the packets that are received one after the other into one
buffer. What the exporter does with them is not followed here. -/
def loopProccess (opt : Options) (st : Globals slots) (buffer : List Byte) :
    List (List Byte) → Except Fault (List TelemetricHdr)
  | [] => pure []
  | frame :: frames => do
      let buffer := recvfrom frame buffer
      let (record, st) ← processPacket opt st buffer
      let records ← loopProccess opt { st with pktCnt := st.pktCnt + 1 } buffer frames
      pure (record :: records)

/-- A report frame with the nodes that it announces. The collector can divide
it into nodes and has slots for them and for the sink. -/
structure Report where
  eth : List Byte
  influx : IntInflux
  nodes : List IntMeta
  rest : List Byte
  eth_length : eth.length = 14
  divisible : influx.hopMetaLen ≠ 0
  announced : (influx.metaLen / influx.hopMetaLen).toNat = nodes.length
  fits : nodes.length < maxNodes

namespace Report

variable (r : Report)

def frame : List Byte :=
  r.eth ++ (intInfluxCodec.encode r.influx ++ (r.nodes.flatMap intMetaCodec.encode ++ r.rest))

def dstTs : BitVec 64 := ntoh64 r.influx.ndkTstamp

def stamps : List (BitVec 64) := Outcome.stamps r.nodes r.dstTs

theorem stamps_length : r.stamps.length = r.nodes.length + 1 := by
  rw [stamps, Outcome.stamps, List.length_append, List.length_map]
  rfl

def first (buffer : List Byte) : IntMeta := frontNode ((recvfrom r.frame buffer).drop 50)

def record (opt : Options) (st : State) (buffer : List Byte) : TelemetricHdr :=
  cutTimestamps opt (recordOf st r.influx r.nodes (r.first buffer))

def leave (st : State) : State := { stateAfter st r.influx r.nodes with pktCnt := st.pktCnt + 1 }

end Report

def collector (opt : Options) : Machine (State × List Byte) Report TelemetricHdr where
  next s r := (r.leave s.1, recvfrom r.frame s.2)
  out s r := r.record opt s.1 s.2

theorem recvfrom_frame (r : Report) (buffer : List Byte) (h : buffer.length = pktBufSize) :
    ∃ rest, recvfrom r.frame buffer =
        r.eth ++ (intInfluxCodec.encode r.influx ++ (r.nodes.flatMap intMetaCodec.encode ++ rest)) ∧
      intMetaCodec.size ≤ (r.nodes.flatMap intMetaCodec.encode ++ rest).length := by
  have hsize : 14 + intInfluxCodec.size + maxNodes * intMetaCodec.size ≤ pktBufSize := by decide
  have hnodes : (r.nodes.flatMap intMetaCodec.encode).length = r.nodes.length * intMetaCodec.size := by
    simp only [List.length_flatMap, Codec.encode_length, List.map_const', List.sum_replicate_nat]
  have hle : r.nodes.length * intMetaCodec.size ≤ maxNodes * intMetaCodec.size :=
    Nat.mul_le_mul_right _ (Nat.le_of_lt r.fits)
  have hsplit : r.frame = (r.eth ++ (intInfluxCodec.encode r.influx ++
      r.nodes.flatMap intMetaCodec.encode)) ++ r.rest := by
    simp only [Report.frame, List.append_assoc]
  have hfront : (r.eth ++ (intInfluxCodec.encode r.influx ++
      r.nodes.flatMap intMetaCodec.encode)).length =
        14 + (intInfluxCodec.size + r.nodes.length * intMetaCodec.size) := by
    rw [List.length_append, List.length_append, Codec.encode_length, r.eth_length, hnodes]
  obtain ⟨rest, hrest⟩ := recvfrom_append _ r.rest buffer (by rw [hfront]; omega)
  have hlen := congrArg List.length hrest
  rw [recvfrom_length _ _ h, List.length_append, hfront] at hlen
  refine ⟨rest, ?_, ?_⟩
  · rw [hsplit, hrest]
    simp only [List.append_assoc]
  · rw [List.length_append, hnodes]
    have hone : intMetaCodec.size ≤ maxNodes * intMetaCodec.size := Nat.le_mul_of_pos_left _ (by decide)
    omega

theorem processPacket_frame (opt : Options) (st : State) (r : Report) (buffer : List Byte)
    (h : buffer.length = pktBufSize) :
    processPacket opt st (recvfrom r.frame buffer) =
      .ok (r.record opt st buffer, stateAfter st r.influx r.nodes) := by
  obtain ⟨rest, hrec, hfront⟩ := recvfrom_frame r buffer h
  have hfirst : r.first buffer = frontNode (r.nodes.flatMap intMetaCodec.encode ++ rest) := by
    have hlen : (r.eth ++ intInfluxCodec.encode r.influx).length = 50 := by
      rw [List.length_append, Codec.encode_length, r.eth_length]
      rfl
    rw [Report.first, hrec, ← List.append_assoc, List.drop_left' hlen]
  rw [Report.record, hfirst, hrec]
  exact processPacket_report opt st r.eth rest r.influx r.nodes r.eth_length r.divisible r.announced
    r.fits hfront

theorem loopProccess_reports (opt : Options) (st : State) (buffer : List Byte) (reports : List Report)
    (h : buffer.length = pktBufSize) :
    loopProccess opt st buffer (reports.map Report.frame) =
      .ok ((collector opt).outputs (st, buffer) reports) := by
  induction reports generalizing st buffer with
  | nil => rfl
  | cons r reports ih =>
      have hnext : { stateAfter st r.influx r.nodes with
          pktCnt := (stateAfter st r.influx r.nodes).pktCnt + 1 } = r.leave st := rfl
      have hrest := ih (r.leave st) (recvfrom r.frame buffer) (recvfrom_length _ _ h)
      rw [List.map_cons, loopProccess, processPacket_frame opt st r buffer h]
      simp only [ok_bind]
      rw [hnext, hrest]
      rfl

end IntPlatform.Collector.Loop
