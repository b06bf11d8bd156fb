import IntPlatform.Library.Mealy
import IntPlatform.Exporter.Sender

namespace IntPlatform.Exporter.HttpSender

open Library.Batching Library.Mealy Collector.Records Collector.ProcessPacket AddReport Sender

def popThreshold : BitVec 32 := 10

structure Waiting where
  buffer : Buffer
  flush : BitVec 32

def Waiting.start : Waiting := ⟨Buffer.clear, 0⟩

def httpIteration (opt : SenderOptions) (s : Waiting) (p : Pop) : Waiting × Reaction :=
  match p.telemetric with
  | none =>
      let flush := s.flush + 1
      if flush = popThreshold ∧ s.buffer.data ≠ [] ∧ opt.hostValid ≠ 0 then
        (⟨Buffer.clear, flush⟩, ⟨some s.buffer.data, []⟩)
      else (⟨s.buffer, flush⟩, ⟨none, []⟩)
  | some telemetric =>
      if opt.hostValid = 0 then (⟨s.buffer, 0⟩, ⟨none, []⟩)
      else
        let buffer := s.buffer.append telemetric
        if opt.batch ≤ buffer.it then (⟨Buffer.clear, 0⟩, ⟨some buffer.data, []⟩)
        else (⟨buffer, 0⟩, ⟨none, []⟩)

def httpSender (opt : SenderOptions) : Machine Waiting Pop Reaction where
  next s p := (httpIteration opt s p).1
  out s p := (httpIteration opt s p).2

def emptyPops (pops : List Pop) : Nat :=
  (pops.reverse.takeWhile fun p => p.telemetric.isNone).length

theorem emptyPops_none (pops : List Pop) (p : Pop) (hp : p.telemetric = none) :
    emptyPops (pops ++ [p]) = emptyPops pops + 1 := by
  rw [emptyPops, List.reverse_concat, List.takeWhile_cons_of_pos (by rw [hp]; rfl), List.length_cons,
    emptyPops]

theorem emptyPops_some (pops : List Pop) (p : Pop) (t : TelemetricHdr) (hp : p.telemetric = some t) :
    emptyPops (pops ++ [p]) = 0 := by
  rw [emptyPops, List.reverse_concat, List.takeWhile_cons_of_neg (by rw [hp]; exact Bool.false_ne_true)]
  rfl

variable (opt : SenderOptions)

section Step

variable (s : Waiting) (p : Pop) (t : TelemetricHdr)

theorem httpIteration_flush (hvalid : opt.hostValid ≠ 0) (hp : p.telemetric = none)
    (hflush : s.flush + 1 = popThreshold) (hdata : s.buffer.data ≠ []) :
    httpIteration opt s p = (⟨Buffer.clear, s.flush + 1⟩, ⟨some s.buffer.data, []⟩) := by
  rw [httpIteration, hp]
  exact if_pos ⟨hflush, hdata, hvalid⟩

theorem httpIteration_idle (hp : p.telemetric = none)
    (h : s.flush + 1 = popThreshold → s.buffer.data = []) :
    httpIteration opt s p = (⟨s.buffer, s.flush + 1⟩, ⟨none, []⟩) := by
  rw [httpIteration, hp]
  exact if_neg fun hc => hc.2.1 (h hc.1)

theorem httpIteration_send (hvalid : opt.hostValid ≠ 0) (hp : p.telemetric = some t)
    (hit : opt.batch ≤ (s.buffer.append t).it) :
    httpIteration opt s p = (⟨Buffer.clear, 0⟩, ⟨some (s.buffer.append t).data, []⟩) := by
  rw [httpIteration, hp]
  dsimp only
  rw [if_neg hvalid, if_pos hit]

theorem httpIteration_wait (hvalid : opt.hostValid ≠ 0) (hp : p.telemetric = some t)
    (hit : ¬ opt.batch ≤ (s.buffer.append t).it) :
    httpIteration opt s p = (⟨s.buffer.append t, 0⟩, ⟨none, []⟩) := by
  rw [httpIteration, hp]
  dsimp only
  rw [if_neg hvalid, if_neg hit]

end Step

structure Batched (pops : List Pop) (rs : List Reaction) (s : Waiting) (b : Batches TelemetricHdr) :
    Prop where
  items : b.items = records pops
  sent : bodies rs = b.bodies report
  buffer : Represents s.buffer b
  pending : recordLines b.pending < opt.batch.toNat
  flush : emptyPops pops < 10 → s.flush.toNat = emptyPops pops
  idle : 10 ≤ emptyPops pops → b.pending = []

theorem batched_start (hpos : 1 ≤ opt.batch.toNat) :
    Batched opt [] [] Waiting.start Batches.empty where
  items := rfl
  sent := rfl
  buffer := represents_clear _ rfl
  pending := hpos
  flush _ := rfl
  idle _ := rfl

section Run

variable {opt : SenderOptions} {pops : List Pop} {rs : List Reaction} {s : Waiting}
  {b : Batches TelemetricHdr}

theorem flush_succ (h : Batched opt pops rs s b) (hlt : emptyPops pops < 10) :
    (s.flush + 1).toNat = emptyPops pops + 1 := by
  have hone : (1 : BitVec 32).toNat = 1 := rfl
  rw [BitVec.toNat_add, h.flush hlt, hone]
  omega

theorem batched_empty (hvalid : opt.hostValid ≠ 0) (h : Batched opt pops rs s b) (p : Pop)
    (hp : p.telemetric = none) :
    ∃ b', Batched opt (pops ++ [p]) (rs ++ [(httpIteration opt s p).2]) (httpIteration opt s p).1 b' := by
  have hflush (hlt : emptyPops (pops ++ [p]) < 10) : (s.flush + 1).toNat = emptyPops (pops ++ [p]) := by
    rw [emptyPops_none pops p hp] at hlt ⊢
    exact flush_succ h (by omega)
  have hrecords : records (pops ++ [p]) = records pops := by
    rw [records_concat, hp, Option.toList_none, List.append_nil]
  by_cases hsend : s.flush + 1 = popThreshold ∧ s.buffer.data ≠ []
  · obtain ⟨hten, hdata⟩ := hsend
    have hne : b.pending ≠ [] := fun hnil => hdata (h.buffer.data_eq_nil.mpr hnil)
    rw [httpIteration_flush opt s p hvalid hp hten hdata]
    refine ⟨b.flush hne, ?_, ?_, represents_clear _ rfl, ?_, hflush, fun _ => rfl⟩
    · rw [Batches.items_flush, h.items, hrecords]
    · rw [bodies_concat, h.sent, Batches.bodies_flush, h.buffer.data]
      rfl
    · exact Nat.zero_lt_of_lt h.pending
  · have hidle (hten : s.flush + 1 = popThreshold) : s.buffer.data = [] := by
      by_contra hdata
      exact hsend ⟨hten, hdata⟩
    rw [httpIteration_idle opt s p hp hidle]
    refine ⟨b, ?_, ?_, h.buffer, h.pending, hflush, ?_⟩
    · rw [h.items, hrecords]
    · rw [bodies_concat, h.sent]
      exact List.append_nil _
    · rw [emptyPops_none pops p hp]
      intro hge
      rcases Nat.lt_or_ge (emptyPops pops) 10 with hlt | hten
      · apply h.buffer.data_eq_nil.mp
        apply hidle
        apply BitVec.eq_of_toNat_eq
        have hten : popThreshold.toNat = 10 := rfl
        rw [flush_succ h hlt, hten]
        omega
      · exact h.idle hten

theorem batched_record (hvalid : opt.hostValid ≠ 0) (hmax : opt.batch.toNat ≤ 2 ^ 31 - 1)
    (h : Batched opt pops rs s b) (p : Pop) (t : TelemetricHdr) (hp : p.telemetric = some t)
    (ht : Exported t) :
    ∃ b', Batched opt (pops ++ [p]) (rs ++ [(httpIteration opt s p).2]) (httpIteration opt s p).1 b' := by
  have hrep := h.buffer.append t
  have hlines : recordLines (b.add t).pending = recordLines b.pending + (1 + t.nodeMeta.length) :=
    recordLines_concat _ _
  have hle : t.nodeMeta.length ≤ 256 := ht.nodeMeta
  have hless := h.pending
  have hit := hrep.it_toNat (by omega)
  have hitems : (b.add t).items = records (pops ++ [p]) := by
    rw [Batches.items_add, h.items, records_concat, hp, Option.toList_some]
  have hzero : emptyPops (pops ++ [p]) = 0 := emptyPops_some pops p t hp
  by_cases hfull : opt.batch ≤ (s.buffer.append t).it
  · rw [httpIteration_send opt s p t hvalid hp hfull]
    refine ⟨(b.add t).flush (b.add_pending_ne_nil t), ?_, ?_, represents_clear _ rfl, ?_, ?_,
      fun _ => rfl⟩
    · rw [Batches.items_flush, hitems]
    · rw [bodies_concat, h.sent, Batches.bodies_flush, Batches.bodies_add, hrep.data]
      rfl
    · exact Nat.zero_lt_of_lt hless
    · intro _
      rw [hzero]
      rfl
  · rw [httpIteration_wait opt s p t hvalid hp hfull]
    refine ⟨b.add t, hitems, ?_, hrep, ?_, ?_, ?_⟩
    · rw [bodies_concat, h.sent]
      exact List.append_nil _
    · rw [BitVec.le_def, hit] at hfull
      omega
    · intro _
      rw [hzero]
      rfl
    · intro hge
      omega

end Run

theorem httpSender_batched (hvalid : opt.hostValid ≠ 0) (hpos : 1 ≤ opt.batch.toNat)
    (hmax : opt.batch.toNat ≤ 2 ^ 31 - 1) (pops : List Pop) (hpops : ∀ t ∈ records pops, Exported t) :
    ∃ b, Batched opt pops ((httpSender opt).outputs Waiting.start pops)
      ((httpSender opt).after Waiting.start pops) b := by
  revert hpops
  refine (httpSender opt).invariant (fun pops rs s =>
    (∀ t ∈ records pops, Exported t) → ∃ b, Batched opt pops rs s b) ?_ ?_ pops
  · exact fun _ => ⟨_, batched_start opt hpos⟩
  · intro pops rs s p ih hpops
    rw [records_concat] at hpops
    obtain ⟨b, hb⟩ := ih fun t ht => hpops t (List.mem_append_left _ ht)
    cases hp : p.telemetric with
    | none => exact batched_empty hvalid hb p hp
    | some t =>
        have ht : Exported t := by
          apply hpops
          rw [hp]
          exact List.mem_append_right _ List.mem_cons_self
        exact batched_record hvalid hmax hb p t hp ht

/-- The batching of http_sender over any run, whatever the sends come to. -/
theorem http_batching (hvalid : opt.hostValid ≠ 0) (hpos : 1 ≤ opt.batch.toNat)
    (hmax : opt.batch.toNat ≤ 2 ^ 31 - 1) (pops : List Pop) (hpops : ∀ t ∈ records pops, Exported t) :
    let s := (httpSender opt).after Waiting.start pops
    let sent := bodies ((httpSender opt).outputs Waiting.start pops)
    sent.flatten ++ s.buffer.data = (records pops).flatMap (fun t => (addReport t []).2) ∧
      (∀ body ∈ sent, body ≠ []) ∧
      (∃ (groups : List (List TelemetricHdr)) (pending : List TelemetricHdr),
        groups.flatten ++ pending = records pops ∧
          sent = groups.map (fun group => group.flatMap fun t => (addReport t []).2) ∧
          s.buffer.data = pending.flatMap fun t => (addReport t []).2) ∧
      s.buffer.it.toNat = lines s.buffer.data ∧
      lines s.buffer.data < opt.batch.toNat ∧
      (popThreshold.toNat ≤ emptyPops pops → s.buffer.data = []) := by
  have htext : (fun t => (addReport t []).2) = report := by
    funext t
    rw [addReport_eq, List.nil_append]
  obtain ⟨b, hb⟩ := httpSender_batched opt hvalid hpos hmax pops hpops
  have hlines := hb.buffer.lines (hb.items ▸ hpops)
  have hpending := hb.pending
  intro s sent
  have hsent : sent = b.bodies report := hb.sent
  have hdata : s.buffer.data = b.rest report := hb.buffer.data
  rw [htext]
  refine ⟨?_, ?_, ⟨b.sent, b.pending, hb.items, hsent, hdata⟩, ?_, ?_, ?_⟩
  · rw [hsent, hdata, b.bodies_rest, hb.items]
  · rw [hsent]
    exact b.bodies_ne_nil report fun t _ => report_ne_nil t
  · rw [hlines, hb.buffer.it_toNat (by omega)]
  · rwa [hlines]
  · exact fun hidle => hb.buffer.data_eq_nil.mpr (hb.idle hidle)

def samplePops : List Pop := List.replicate 3 ⟨some oneHop, none⟩ ++ List.replicate 10 ⟨none, none⟩

theorem http_batching_sample :
    (bodies ((httpSender ⟨1, 6⟩).outputs Waiting.start samplePops)).flatten =
        (List.replicate 3 oneHop).flatMap (fun t => (addReport t []).2) ∧
      ((httpSender ⟨1, 6⟩).after Waiting.start samplePops).buffer.data = [] := by
  have hrecords : records samplePops = List.replicate 3 oneHop := rfl
  have hpops : ∀ t ∈ records samplePops, Exported t := by
    intro t ht
    rw [hrecords] at ht
    exact List.eq_of_mem_replicate ht ▸ oneHop_exported
  obtain ⟨hall, -, -, -, -, hidle⟩ :=
    http_batching ⟨1, 6⟩ (by decide) (by decide) (by decide) samplePops hpops
  have hdata := hidle (by decide)
  rw [hdata, List.append_nil] at hall
  exact ⟨hall, hdata⟩

end IntPlatform.Exporter.HttpSender
