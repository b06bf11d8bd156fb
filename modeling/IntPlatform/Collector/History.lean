import Mathlib.Algebra.Group.Nat.Defs
import IntPlatform.Collector.FlowIsolation
import IntPlatform.Collector.Runs

namespace IntPlatform.Collector.History

open Library.Formats Library.Mealy Records ProcessPacket Outcome Buffers Loop Runs FlowIsolation

variable {slots : Nat}

abbrev Packet := IntInflux × TelemetricHdr

def addresses (h : IntInflux) : BitVec 32 × BitVec 32 := (h.srcAddr, h.dstAddr)

def pairOf (pair : BitVec 32 × BitVec 32) (packets : List Packet) : List Packet :=
  packets.filter fun p => addresses p.1 = pair

def latest (packets : List Packet) : MetaData :=
  match packets.getLast? with
  | none => {}
  | some p => ⟨p.2.seqNum, ntoh64 p.1.ndkTstamp⟩

/-- A record continues the history of its pair. -/
structure Follows (past : List Packet) (p : Packet) : Prop where
  sinkJitter : p.2.sinkJitter = ntoh64 p.1.ndkTstamp - (latest past).prevDstTs
  counted : rawSeq p.1 = 0 → p.2.reordering = 0 ∧ p.2.seqNum = (latest past).seq + 1
  numbered : rawSeq p.1 ≠ 0 →
    p.2.seqNum = rawSeq p.1 ∧ p.2.reordering = p.2.seqNum - (latest past).seq - 1

/-- The packets that reorder, counted with their signs, and one for each. -/
def advance : List Packet → Int
  | [] => 0
  | p :: packets => p.2.reordering.toInt + 1 + advance packets

theorem mapKey_eq_iff (h h' : IntInflux) : mapKey h = mapKey h' ↔ addresses h = addresses h' := by
  rw [addresses, addresses, Prod.mk.injEq, mapKey, mapKey]
  constructor
  · intro hk
    have hdst := congrArg (BitVec.extractLsb' 32 32) hk
    have hsrc := congrArg (BitVec.extractLsb' 0 32) hk
    rw [BitVec.extractLsb'_append_eq_left, BitVec.extractLsb'_append_eq_left] at hdst
    rw [BitVec.extractLsb'_append_eq_right, BitVec.extractLsb'_append_eq_right] at hsrc
    exact ⟨hsrc, hdst⟩
  · rintro ⟨hsrc, hdst⟩
    rw [hsrc, hdst]

theorem latest_concat (packets : List Packet) (p : Packet) :
    latest (packets ++ [p]) = ⟨p.2.seqNum, ntoh64 p.1.ndkTstamp⟩ := by
  rw [latest, List.getLast?_concat]

theorem pairOf_concat (pair : BitVec 32 × BitVec 32) (packets : List Packet) (p : Packet) :
    pairOf pair (packets ++ [p]) =
      if addresses p.1 = pair then pairOf pair packets ++ [p] else pairOf pair packets := by
  rw [pairOf, List.filter_append]
  by_cases hp : addresses p.1 = pair
  · rw [if_pos hp, List.filter_cons_of_pos (by simpa using hp)]
    rfl
  · rw [if_neg hp, List.filter_cons_of_neg (by simpa using hp), List.filter_nil, List.append_nil]
    rfl

def Remembers (st : Globals slots) (packets : List Packet) : Prop :=
  ∀ h : IntInflux, st.flowMap (mapKey h) = latest (pairOf (addresses h) packets)

section Step

variable (opt : Options) (st : Globals slots) (buffer : List Byte) (past : List Packet) (hst : Remembers st past)

include hst

theorem follows_out : Follows (pairOf (addresses (influxOf buffer)) past)
    (influxOf buffer, (decoder opt).out st buffer) := by
  have hseq := out_seqNum opt st buffer
  have hreordering := out_reordering opt st buffer
  have hjitter := out_sinkJitter opt st buffer
  rw [hst] at hseq hreordering hjitter
  refine ⟨hjitter, ?_, ?_⟩
  · intro hz
    rw [if_pos hz] at hreordering
    rw [seqAfter, if_pos hz] at hseq
    exact ⟨hreordering, hseq⟩
  · intro hz
    rw [if_neg hz] at hreordering
    rw [seqAfter, if_neg hz] at hseq
    exact ⟨hseq, by rw [hreordering, hseq]⟩

theorem remembers_next : Remembers ((decoder opt).next st buffer)
    (past ++ [(influxOf buffer, (decoder opt).out st buffer)]) := by
  intro h
  have hmap : ((decoder opt).next st buffer).flowMap = _ := recorded_flowMap opt st buffer
  rw [hmap, pairOf_concat]
  by_cases hp : addresses (influxOf buffer) = addresses h
  · rw [if_pos hp, latest_concat, ← (mapKey_eq_iff _ _).mpr hp, Function.update_self, out_seqNum]
  · have hne : mapKey h ≠ mapKey (influxOf buffer) := fun hk => hp ((mapKey_eq_iff _ _).mp hk.symm)
    rw [if_neg hp, Function.update_of_ne hne]
    exact hst h

end Step

def packets (buffers : List (List Byte)) (records : List TelemetricHdr) : List Packet :=
  (buffers.map influxOf).zip records

theorem packets_concat (buffers : List (List Byte)) (records : List TelemetricHdr) (buffer : List Byte)
    (t : TelemetricHdr) (h : buffers.length = records.length) :
    packets (buffers ++ [buffer]) (records ++ [t]) = packets buffers records ++ [(influxOf buffer, t)] := by
  rw [packets, List.map_append, List.zip_append (by rw [List.length_map, h])]
  rfl

theorem run_follows (opt : Options) (st : Globals slots) (hst : st.flowMap = fun _ => {})
    (buffers : List (List Byte)) :
    AtEach (fun past p => Follows (pairOf (addresses p.1) past) p)
      (packets buffers ((decoder opt).outputs st buffers)) := by
  have hrun := (decoder opt).invariant (s := st) (fun is os s => is.length = os.length ∧
    Remembers s (packets is os) ∧
    AtEach (fun past p => Follows (pairOf (addresses p.1) past) p) (packets is os))
    (by
      refine ⟨rfl, ?_, atEach_nil _⟩
      intro h
      rw [hst]
      rfl)
    (by
      rintro is os s buffer ⟨hlen, hrem, hall⟩
      rw [packets_concat is os buffer _ hlen, atEach_concat]
      refine ⟨by rw [List.length_append, List.length_append, hlen]; rfl, ?_, hall, ?_⟩
      · exact remembers_next opt s buffer _ hrem
      · exact follows_out opt s buffer _ hrem)
    buffers
  exact hrun.2.2

theorem atEach_pairOf (P : List Packet → Packet → Prop) (pair : BitVec 32 × BitVec 32) (l : List Packet)
    (h : AtEach (fun past p => P (pairOf (addresses p.1) past) p) l) : AtEach P (pairOf pair l) := by
  induction l using List.reverseRecOn with
  | nil => exact atEach_nil P
  | append_singleton l p ih =>
      obtain ⟨hl, hp⟩ := (atEach_concat _ l p).mp h
      rw [pairOf_concat]
      by_cases ha : addresses p.1 = pair
      · rw [if_pos ha, atEach_concat]
        exact ⟨ih hl, ha ▸ hp⟩
      · rw [if_neg ha]
        exact ih hl

theorem seqNum_counted (l : List Packet) (h : AtEach Follows l) (hz : ∀ p ∈ l, rawSeq p.1 = 0) :
    (latest l).seq = BitVec.ofNat 64 l.length ∧
      ∀ j p, l[j]? = some p → p.2.seqNum = BitVec.ofNat 64 (j + 1) := by
  induction l using List.reverseRecOn with
  | nil =>
      refine ⟨rfl, ?_⟩
      intro j p hj
      cases hj
  | append_singleton l p ih =>
      obtain ⟨hl, hp⟩ := (atEach_concat _ l p).mp h
      obtain ⟨hlast, hall⟩ := ih hl fun q hq => hz q (List.mem_append_left _ hq)
      have hseq := (hp.counted (hz p (List.mem_append_right _ (List.mem_singleton_self p)))).2
      rw [hlast] at hseq
      have hcount : p.2.seqNum = BitVec.ofNat 64 (l.length + 1) := by
        rw [hseq, BitVec.ofNat_add]
        rfl
      refine ⟨?_, ?_⟩
      · rw [latest_concat, List.length_append]
        exact hcount
      · intro j q hj
        rcases Nat.lt_trichotomy j l.length with hlt | rfl | hgt
        · rw [List.getElem?_append_left hlt] at hj
          exact hall j q hj
        · rw [List.getElem?_concat_length] at hj
          cases hj
          exact hcount
        · rw [List.getElem?_eq_none (by rw [List.length_append, List.length_singleton]; omega)] at hj
          cases hj

theorem advance_concat (l : List Packet) (p : Packet) :
    advance (l ++ [p]) = advance l + (p.2.reordering.toInt + 1) := by
  induction l with
  | nil => exact Int.add_comm _ _
  | cons q l ih => rw [List.cons_append, advance, ih, advance, ← Int.add_assoc]

theorem rawSeq_lt (h : IntInflux) : (rawSeq h).toNat < 2 ^ 32 := by
  rw [rawSeq, BitVec.toNat_setWidth_of_le (by decide)]
  exact (ntohl h.seq).isLt

section Numbered

variable (pre block : List Packet) (h : AtEach Follows (pre ++ block)) (hnz : ∀ p ∈ block, rawSeq p.1 ≠ 0)

include h hnz

theorem advance_telescope :
    BitVec.ofInt 64 (advance block) = (latest (pre ++ block)).seq - (latest pre).seq := by
  induction block using List.reverseRecOn with
  | nil =>
      rw [List.append_nil, BitVec.sub_self]
      rfl
  | append_singleton block p ih =>
      rw [← List.append_assoc] at h
      obtain ⟨hl, hp⟩ := (atEach_concat _ _ p).mp h
      obtain ⟨hseq, hreordering⟩ :=
        hp.numbered (hnz p (List.mem_append_right _ (List.mem_singleton_self p)))
      have hone : BitVec.ofInt 64 1 = 1#64 := rfl
      rw [← List.append_assoc, latest_concat, advance_concat, BitVec.ofInt_add, BitVec.ofInt_add,
        BitVec.ofInt_toInt, hone, ih hl fun q hq => hnz q (List.mem_append_left _ hq), hreordering]
      bv_omega

theorem advance_telescope_int (hpre : (latest pre).seq.toNat < 2 ^ 63) :
    advance block = (latest (pre ++ block)).seq.toNat - (latest pre).seq.toNat := by
  have hrun : (latest (pre ++ block)).seq.toNat < 2 ^ 63 ∧
      advance block = (latest (pre ++ block)).seq.toNat - (latest pre).seq.toNat := by
    induction block using List.reverseRecOn with
    | nil =>
        rw [List.append_nil]
        exact ⟨hpre, (Int.sub_self _).symm⟩
    | append_singleton block p ih =>
        rw [← List.append_assoc] at h
        obtain ⟨hl, hp⟩ := (atEach_concat _ _ p).mp h
        obtain ⟨hbound, hsum⟩ := ih hl fun q hq => hnz q (List.mem_append_left _ hq)
        obtain ⟨hseq, hreordering⟩ :=
          hp.numbered (hnz p (List.mem_append_right _ (List.mem_singleton_self p)))
        have hraw := rawSeq_lt p.1
        rw [← hseq] at hraw
        have hint : p.2.reordering.toInt =
            (p.2.seqNum.toNat : Int) - (latest (pre ++ block)).seq.toNat - 1 := by
          rw [hreordering, BitVec.toInt_sub, BitVec.toInt_sub, BitVec.toInt_eq_toNat_of_lt (by omega),
            BitVec.toInt_eq_toNat_of_lt (by omega), Int.bmod_sub_bmod]
          exact Int.bmod_eq_of_le (by simp; omega) (by simp; omega)
        rw [← List.append_assoc, latest_concat, advance_concat, hsum, hint]
        dsimp only
        exact ⟨by omega, by omega⟩
  exact hrun.2

end Numbered

def packetsOf (buffer : List Byte) (frames : List (List Byte)) (records : List TelemetricHdr) :
    List Packet :=
  packets (buffersOf buffer frames) records

/-- Packets that can be divided into nodes are processed without a fault, and
every record continues the history of its address pair, whatever came in
between: its packets are counted, or their reorderings telescope. -/
theorem pair_history (opt : Options) (st : Globals slots) (hst : st.flowMap = fun _ => {})
    (buffer : List Byte) (h : buffer.length = pktBufSize) (frames : List (List Byte))
    (hp : ∀ b ∈ buffersOf buffer frames, Processable slots b) :
    ∃ records, loopProccess opt st buffer frames = .ok records ∧
      (packetsOf buffer frames records).length = frames.length ∧
      AtEach (fun past p => Follows (pairOf (addresses p.1) past) p) (packetsOf buffer frames records) ∧
      (∀ pair, (∀ p ∈ pairOf pair (packetsOf buffer frames records), rawSeq p.1 = 0) →
        ∀ j p, (pairOf pair (packetsOf buffer frames records))[j]? = some p →
          p.2.seqNum = BitVec.ofNat 64 (j + 1)) ∧
      ∀ pair pre block post, pairOf pair (packetsOf buffer frames records) = pre ++ block ++ post →
        (∀ p ∈ block, rawSeq p.1 ≠ 0) →
          BitVec.ofInt 64 (advance block) = (latest (pre ++ block)).seq - (latest pre).seq ∧
          ((latest pre).seq.toNat < 2 ^ 63 →
            advance block = (latest (pre ++ block)).seq.toNat - (latest pre).seq.toNat) := by
  have hrun := run_follows opt st hst (buffersOf buffer frames)
  have hlen : ((decoder opt).outputs st (buffersOf buffer frames)).length =
      (buffersOf buffer frames).length := Machine.outputs_length _ _ _
  refine ⟨(decoder opt).outputs st (buffersOf buffer frames),
    (loopProccess_eq_ok opt st buffer frames h _).mpr ⟨hp, rfl⟩, ?_, hrun, ?_, ?_⟩
  · rw [packetsOf, packets, List.length_zip, List.length_map, hlen, buffersOf_length, Nat.min_self]
  · intro pair hz
    exact (seqNum_counted _ (atEach_pairOf Follows pair _ hrun) hz).2
  · intro pair pre block post hsplit hnz
    have hpair := atEach_pairOf Follows pair _ hrun
    rw [← packetsOf, hsplit] at hpair
    have hblock := atEach_prefix Follows _ post hpair
    exact ⟨advance_telescope pre block hblock hnz, advance_telescope_int pre block hblock hnz⟩

def sampleReports : List Report := [sampleReport 5000 100, sampleReport 5001 200, sampleReport 5000 300]

theorem pair_history_sample : ∃ records,
    loopProccess ⟨1, 0, 1, 1⟩ State.initial (List.replicate pktBufSize 0) (sampleReports.map Report.frame) =
        .ok records ∧
      AtEach (fun past p => Follows (pairOf (addresses p.1) past) p)
        (packetsOf (List.replicate pktBufSize 0) (sampleReports.map Report.frame) records) := by
  have hrun := loopProccess_reports ⟨1, 0, 1, 1⟩ State.initial _ sampleReports
    (List.length_replicate (n := pktBufSize) (a := 0))
  have hp := ((loopProccess_eq_ok ⟨1, 0, 1, 1⟩ State.initial _ _ List.length_replicate _).mp hrun).1
  obtain ⟨records, hok, -, hfollows, -⟩ := pair_history ⟨1, 0, 1, 1⟩ State.initial rfl
    (List.replicate pktBufSize 0) List.length_replicate (sampleReports.map Report.frame) hp
  exact ⟨records, hok, hfollows⟩

end IntPlatform.Collector.History
