import IntPlatform.Collector.FlowIsolation
import IntPlatform.Exporter.LineProtocol

namespace IntPlatform.Exporter.SignedJitter

open Library Library.Formats Library.Mealy Library.Numerals Library.LineProtocol Collector.Records
open Collector.ProcessPacket Collector.Outcome Collector.Loop Collector.FlowIsolation AddReport
open Exporter.LineProtocol

def difference (ts prev : BitVec 64) : Int := ts.toNat - prev.toNat

def jitters (text : List Char) : Option (Option Int × List (Option Int)) :=
  match readBody text with
  | some (packet :: hops) => some (packet.number "sink_jitter", hops.map (·.number "hop_jitter"))
  | _ => none

def Signed (before : List Report) (r : Report) (text : List Char) : Prop :=
  jitters text =
    some (some (difference r.dstTs (lastTime State.initial.flowMap before (mapKey r.influx))),
      r.stamps.mapIdx fun i ts => some (difference ts (lastStamp State.initial.prevTimestamps before i)))

def JitterSigned (opt : Options) (buffer : List Byte) (reports : List Report) : Prop :=
  ∃ records, loopProccess opt State.initial buffer (reports.map Report.frame) = .ok records ∧
    AtEach (fun before r => ∃ t ∈ records[before.length]?, Signed before r (report t)) reports

/-- The report is not older than the last one between its addresses, and its
first hop is not older than the last one at that position. -/
def InOrder (before : List Report) (r : Report) : Prop :=
  lastTime State.initial.flowMap before (mapKey r.influx) ≤ r.dstTs ∧
    ∀ ts ∈ r.stamps.head?, lastStamp State.initial.prevTimestamps before 0 ≤ ts

def written : List (BitVec 64) → List (Option Int)
  | [] => []
  | first :: rest => some (first.toNat : Int) :: rest.map fun v => some v.toInt

theorem sub_toNat_iff (ts prev : BitVec 64) : ((ts - prev).toNat : Int) = difference ts prev ↔ prev ≤ ts := by
  rw [difference, BitVec.le_def, BitVec.toNat_sub]
  have hts := ts.isLt
  have hprev := prev.isLt
  omega

theorem sub_toInt (ts prev : BitVec 64) (hts : ts.toNat < 2 ^ 63) (hprev : prev.toNat < 2 ^ 63) :
    (ts - prev).toInt = difference ts prev := by
  rw [difference, BitVec.toInt_eq_toNat_cond, BitVec.toNat_sub]
  split <;> omega

theorem number_packetPoint (t : TelemetricHdr) :
    (packetPoint t).number "sink_jitter" = some (t.sinkJitter.toNat : Int) := by
  unfold Point.number Point.field packetPoint
  simp (disch := decide) only [List.lookup_cons_self, lookup_of_ne, Option.bind_some, integer_unsigned]

theorem number_firstNodePoint (t : TelemetricHdr) (item : TelemetricMeta) :
    (firstNodePoint t item).number "hop_jitter" = some (item.hopJitter.toNat : Int) := by
  unfold Point.number Point.field firstNodePoint
  simp (disch := decide) only [List.lookup_cons_self, lookup_of_ne, Option.bind_some, integer_unsigned]

theorem number_nodePoint (t : TelemetricHdr) (item : TelemetricMeta) :
    (nodePoint t item).number "hop_jitter" = some item.hopJitter.toInt := by
  unfold Point.number Point.field nodePoint
  split
  · simp (disch := decide) only [List.cons_append, List.nil_append, List.lookup_cons_self, lookup_of_ne,
      Option.bind_some, integer_signed]
  · simp (disch := decide) only [List.nil_append, List.lookup_cons_self, lookup_of_ne, Option.bind_some,
      integer_signed]

theorem jitters_report (t : TelemetricHdr) (h : Exported t) :
    jitters (report t) =
      some (some (t.sinkJitter.toNat : Int), written (t.nodeMeta.map TelemetricMeta.hopJitter)) := by
  have hhops : (nodePoints t t.nodeMeta).map (·.number "hop_jitter") =
      written (t.nodeMeta.map TelemetricMeta.hopJitter) := by
    cases t.nodeMeta with
    | nil => rfl
    | cons first items =>
        rw [nodePoints, List.map_cons, number_firstNodePoint, List.map_map, List.map_cons, written,
          List.map_map]
        exact congrArg (_ :: ·) (List.map_congr_left fun item _ => number_nodePoint t item)
  have hread := readBody_body (points t) (plain_points t h)
  rw [← report_eq] at hread
  rw [jitters, hread, points]
  dsimp only
  rw [number_packetPoint, hhops]

theorem written_eq_iff (stamps : List (BitVec 64)) (stored : Nat → BitVec 64)
    (hstamps : ∀ ts ∈ stamps, ts.toNat < 2 ^ 63) (hstored : ∀ i, (stored i).toNat < 2 ^ 63) :
    written (stamps.mapIdx fun i ts => ts - stored i) =
        (stamps.mapIdx fun i ts => some (difference ts (stored i))) ↔
      ∀ ts ∈ stamps.head?, stored 0 ≤ ts := by
  cases stamps with
  | nil => exact iff_of_true rfl (fun ts h => by cases h)
  | cons first rest =>
      have hrest : (rest.mapIdx fun i ts => ts - stored (i + 1)).map (fun v => some v.toInt) =
          rest.mapIdx fun i ts => some (difference ts (stored (i + 1))) := by
        ext1 i
        rw [List.getElem?_map, List.getElem?_mapIdx, List.getElem?_mapIdx]
        cases hi : rest[i]? with
        | none => rfl
        | some ts =>
            have hts := hstamps ts (List.mem_cons_of_mem first (List.mem_of_getElem? hi))
            rw [Option.map_some, Option.map_some, Option.map_some, sub_toInt ts _ hts (hstored (i + 1))]
      rw [List.mapIdx_cons, List.mapIdx_cons, written, hrest, List.cons.injEq, and_iff_left rfl,
        Option.some.injEq, sub_toNat_iff, List.head?_cons]
      simp only [Option.mem_some_iff, forall_eq']

theorem getLast_lt (l : List (BitVec 64)) (h : ∀ ts ∈ l, ts.toNat < 2 ^ 63) :
    (l.getLast?.getD 0).toNat < 2 ^ 63 := by
  cases hl : l.getLast? with
  | none => exact Nat.two_pow_pos 63
  | some ts => exact h ts (List.mem_of_getLast? hl)

section Stored

variable (before : List Report) (h : ∀ r ∈ before, ∀ ts ∈ r.stamps, ts.toNat < 2 ^ 63)

include h

theorem lastStamp_lt (i : Nat) : (lastStamp State.initial.prevTimestamps before i).toNat < 2 ^ 63 := by
  have hzero : SlotTable.entry State.initial.prevTimestamps i = 0 := SlotTable.entry_default i
  rw [lastStamp, hzero]
  apply getLast_lt
  intro ts hts
  obtain ⟨r, hr, hget⟩ := List.mem_filterMap.mp hts
  exact h r hr ts (List.mem_of_getElem? hget)

end Stored

theorem signed_iff (opt : Options) (buffer : List Byte) (before : List Report) (r : Report)
    (hbefore : ∀ r' ∈ before, ∀ ts ∈ r'.stamps, ts.toNat < 2 ^ 63)
    (hr : ∀ ts ∈ r.stamps, ts.toNat < 2 ^ 63)
    (h : Exported ((collector opt).out ((collector opt).after (State.initial, buffer) before) r)) :
    Signed before r (report ((collector opt).out ((collector opt).after (State.initial, buffer) before) r)) ↔
      InOrder before r := by
  have htime := flowMap_after opt (State.initial, buffer) before (mapKey r.influx)
  have hstamp := prevTimestamps_after opt (State.initial, buffer) before
  generalize (collector opt).after (State.initial, buffer) before = s at htime hstamp h
  have hmetrics := metricsOf_record r opt s.1 s.2
  rw [htime] at hmetrics
  simp only [hstamp] at hmetrics
  have hsink := congrArg Metrics.sinkJitter hmetrics
  have hhops := congrArg Metrics.hopJitters hmetrics
  dsimp only [metricsOf] at hsink hhops
  have hout : (collector opt).out s r = r.record opt s.1 s.2 := rfl
  rw [Signed, jitters_report _ h, hout, hsink, hhops, Option.some.injEq, Prod.mk.injEq, Option.some.injEq,
    sub_toNat_iff, written_eq_iff _ _ hr (lastStamp_lt before hbefore), InOrder]

section Run

variable (opt : Options) (buffer : List Byte) (hbuf : buffer.length = pktBufSize) (reports : List Report)
  (h : ∀ r ∈ reports, ∀ ts ∈ r.stamps, ts.toNat < 2 ^ 63)

include hbuf h

theorem record_signed_iff (before : List Report) (r : Report) (later : List Report)
    (hsplit : reports = before ++ r :: later) :
    (∃ t ∈ ((collector opt).outputs (State.initial, buffer) reports)[before.length]?,
      Signed before r (report t)) ↔ InOrder before r := by
  have hrun := loopProccess_reports opt State.initial buffer reports hbuf
  have hexported := loopProccess_exported opt State.initial buffer _ hbuf _ hrun
  have hget : ((collector opt).outputs (State.initial, buffer) reports)[before.length]? =
      some ((collector opt).out ((collector opt).after (State.initial, buffer) before) r) := by
    rw [hsplit, Machine.outputs_append, List.getElem?_append_right (by rw [Machine.outputs_length]),
      Machine.outputs_length, Nat.sub_self]
    rfl
  have hmem : ∀ r' ∈ before ++ [r], ∀ ts ∈ r'.stamps, ts.toNat < 2 ^ 63 := by
    intro r' hr'
    apply h r'
    rw [hsplit, ← List.singleton_append, ← List.append_assoc]
    exact List.mem_append_left later hr'
  rw [hget, ← signed_iff opt buffer before r (fun r' hr' => hmem r' (List.mem_append_left _ hr'))
    (hmem r (List.mem_append_right _ (List.mem_singleton_self r)))
    (hexported _ (List.mem_of_getElem? hget))]
  simp only [Option.mem_some_iff, exists_eq_left']

/-- The jitter of every record is written with its sign exactly when no report
comes late. -/
theorem jitter_signed_iff : JitterSigned opt buffer reports ↔ AtEach InOrder reports := by
  have hrun := loopProccess_reports opt State.initial buffer reports hbuf
  constructor
  · rintro ⟨records, hok, hall⟩ before r later hsplit
    rw [hrun] at hok
    rw [← Except.ok.inj hok] at hall
    exact (record_signed_iff opt buffer hbuf reports h before r later hsplit).mp
      (hall before r later hsplit)
  · intro horder
    refine ⟨_, hrun, ?_⟩
    intro before r later hsplit
    exact (record_signed_iff opt buffer hbuf reports h before r later hsplit).mpr
      (horder before r later hsplit)

end Run

theorem stamps_sampleReport (srcPort : BitVec 16) (dstTs : BitVec 64) :
    (sampleReport srcPort dstTs).stamps = [dstTs] := by
  have htime : ntoh64 (ntoh64 dstTs) = dstTs := by
    rw [ntoh64_eq_swap, ntoh64_eq_swap, swap_swap]
  change [ntoh64 (ntoh64 dstTs)] = [dstTs]
  rw [htime]

theorem sampleReports_lt (a b : BitVec 64) (ha : a.toNat < 2 ^ 63) (hb : b.toNat < 2 ^ 63) :
    ∀ r ∈ [sampleReport 5000 a, sampleReport 5000 b], ∀ ts ∈ r.stamps, ts.toNat < 2 ^ 63 := by
  rw [List.forall_mem_cons, List.forall_mem_singleton, stamps_sampleReport, stamps_sampleReport,
    List.forall_mem_singleton, List.forall_mem_singleton]
  exact ⟨ha, hb⟩

theorem jitter_signed_sample :
    JitterSigned ⟨1, 0, 1, 1⟩ (List.replicate pktBufSize 0)
      [sampleReport 5000 100, sampleReport 5000 200] := by
  rw [jitter_signed_iff ⟨1, 0, 1, 1⟩ _ List.length_replicate _
    (sampleReports_lt 100 200 (by decide) (by decide)), atEach_cons, atEach_cons]
  refine ⟨⟨by decide, ?_⟩, ⟨by decide, ?_⟩, atEach_nil _⟩ <;>
  · intro ts hts
    rw [stamps_sampleReport, List.head?_cons, Option.mem_some_iff] at hts
    rw [← hts]
    decide

theorem jitter_unsigned_sample :
    ¬ JitterSigned ⟨1, 0, 1, 1⟩ (List.replicate pktBufSize 0)
      [sampleReport 5000 200, sampleReport 5000 100] := by
  rintro ⟨records, hok, hall⟩
  rw [loopProccess_reports _ _ _ _ List.length_replicate] at hok
  rw [← Except.ok.inj hok] at hall
  have horder := (record_signed_iff ⟨1, 0, 1, 1⟩ _ List.length_replicate
    _ (sampleReports_lt 200 100 (by decide) (by decide)) [sampleReport 5000 200] (sampleReport 5000 100) []
    rfl).mp (hall _ _ _ rfl)
  exact absurd horder.1 (by decide)

end IntPlatform.Exporter.SignedJitter
