import IntPlatform.Collector.Records
import IntPlatform.Exporter.RingBuffer
import IntPlatform.Library.RoundRobin

namespace IntPlatform.Exporter.SendData

open Library.Traces Library.CircularIndex Library.RoundRobin Collector.Records RingBuffer

/-- The progress of the packet-processing thread: before report_to_influx, at the
test of the loop in sendData, within push on the ring that m_rr_index selects, or
behind report_to_influx, where loop_proccess has still to count the packet. -/
inductive Call (T : Type)
  | outside
  | loop (telemetric : T) (i : BitVec 32)
  | push (telemetric : T) (i : BitVec 32)
  | counting

/-- The exporter and the packet counters. There is one ring for each sender. -/
structure Process (size : Nat) (opt : Options) (T : Type) where
  ringBuffs : Fin opt.rawBuffer.toNat → Ring size T
  rrIndex : BitVec 32
  call : Call T
  pktCnt : BitVec 64
  pktDrop : BitVec 64

variable {size : Nat} [NeZero size] {opt : Options} {T : Type}

abbrev ExportEvent (opt : Options) (T : Type) := Event opt.rawBuffer.toNat T

/-- The next step of the packet-processing thread, in report_to_influx, sendData
and the counting behind them. The argument is the next record if none is being
exported. -/
def reportStep (telemetric : T) (s : Process size opt T) :
    Option (Process size opt T × Option (ExportEvent opt T)) :=
  match s.call with
  | .outside =>
      if opt.hostValid = 0 then some ({ s with call := .counting }, none)
      else if opt.smplRate = 0 then none
      else if s.pktCnt % opt.smplRate.setWidth 64 = 0 then
        some ({ s with call := .loop telemetric 0 }, some (.offered telemetric))
      else some ({ s with call := .counting }, none)
  | .loop telemetric i =>
      if i < opt.rawBuffer then
        some ({ s with rrIndex := (s.rrIndex + 1) % opt.rawBuffer, call := .push telemetric i }, none)
      else
        some ({ s with call := .counting, pktDrop := s.pktDrop + 1 }, some (.rejected telemetric))
  | .push telemetric i =>
      if h : s.rrIndex.toNat < opt.rawBuffer.toNat then
        let k := ⟨s.rrIndex.toNat, h⟩
        let (ring, o) := producerStep telemetric (s.ringBuffs k)
        let s := { s with ringBuffs := Function.update s.ringBuffs k ring }
        match o with
        | some (.push v) => some ({ s with call := .counting }, some (.accepted k v))
        | some (.full v) => some ({ s with call := .loop telemetric (i + 1) }, some (.refused k v))
        | _ => some (s, none)
      else none
  | .counting => some ({ s with call := .outside, pktCnt := s.pktCnt + 1 }, none)

def senderStep (k : Fin opt.rawBuffer.toNat) (s : Process size opt T) :
    Process size opt T × Option (ExportEvent opt T) :=
  let (ring, o) := consumerStep (s.ringBuffs k)
  let s := { s with ringBuffs := Function.update s.ringBuffs k ring }
  match o with
  | some (.pop v) => (s, some (.taken k v))
  | _ => (s, none)

inductive ExportStep :
    Process size opt T → Option (ExportEvent opt T) → Process size opt T → Prop
  | report (telemetric : T) (s s' : Process size opt T) (o : Option (ExportEvent opt T)) :
      reportStep telemetric s = some (s', o) → ExportStep s o s'
  | sender (k : Fin opt.rawBuffer.toNat) (s : Process size opt T) :
      ExportStep s (senderStep k s).2 (senderStep k s).1

def Process.Started (s : Process size opt T) : Prop :=
  (∀ k, (s.ringBuffs k).Empty) ∧ s.rrIndex = 0 ∧ s.call = .outside ∧ s.pktCnt = 0 ∧ s.pktDrop = 0

/-- The packet-processing thread and the senders, interleaved in any order. -/
def exporter (size : Nat) [NeZero size] (opt : Options) (T : Type) :
    Automaton (Process size opt T) (ExportEvent opt T) :=
  ⟨Process.Started, ExportStep⟩

variable [NeZero opt.rawBuffer.toNat]

/-- How the progress of sendData shows in the distributor. The index is ahead of
its cursor while a push is in progress, and no other ring is being pushed to. -/
def CallMatches (s : Process size opt T) (d : Distributor opt.rawBuffer.toNat T) : Call T → Prop
  | .outside | .counting => d.pending = none ∧ s.rrIndex.toNat = d.cursor ∧
      ∀ k, (s.ringBuffs k).producer = .idle
  | .loop telemetric i => d.pending = some (telemetric, i.toNat) ∧ i ≤ opt.rawBuffer ∧
      s.rrIndex.toNat = d.cursor ∧ ∀ k, (s.ringBuffs k).producer = .idle
  | .push telemetric i => d.pending = some (telemetric, i.toNat) ∧ i < opt.rawBuffer ∧
      s.rrIndex.toNat = slot d.cursor 1 ∧
      (∀ k, k ≠ slot d.cursor 1 → (s.ringBuffs k).producer = .idle) ∧
      (s.ringBuffs (slot d.cursor 1)).producer.value.getD telemetric = telemetric

structure Matches (s : Process size opt T) (d : Distributor opt.rawBuffer.toNat T) : Prop where
  rings : ∀ k, Represents (s.ringBuffs k) (d.queues k)
  call : CallMatches s d s.call

def Advances (size : Nat) (d : Distributor opt.rawBuffer.toNat T) (o : Option (ExportEvent opt T))
    (d' : Distributor opt.rawBuffer.toNat T) : Prop :=
  match o with
  | none => d' = d
  | some e => Step (size - 1) d (some e) d'

section Rings

omit [NeZero opt.rawBuffer.toNat]

theorem rings_update {s : Process size opt T} {d : Distributor opt.rawBuffer.toNat T}
    (h : ∀ k, Represents (s.ringBuffs k) (d.queues k)) (k : Fin opt.rawBuffer.toNat)
    {ring : Ring size T} {q : List T} (hr : Represents ring q) (j : Fin opt.rawBuffer.toNat) :
    Represents (Function.update s.ringBuffs k ring j) (Function.update d.queues k q j) := by
  by_cases hj : j = k
  · subst hj
    rwa [Function.update_self, Function.update_self]
  · rw [Function.update_of_ne hj, Function.update_of_ne hj]
    exact h j

theorem rings_update_same {s : Process size opt T} {d : Distributor opt.rawBuffer.toNat T}
    (h : ∀ k, Represents (s.ringBuffs k) (d.queues k)) (k : Fin opt.rawBuffer.toNat)
    {ring : Ring size T} (hr : Represents ring (d.queues k)) (j : Fin opt.rawBuffer.toNat) :
    Represents (Function.update s.ringBuffs k ring j) (d.queues j) := by
  have hu := rings_update h k hr j
  rwa [Function.update_eq_self] at hu

omit [NeZero size] in
theorem idle_update {s : Process size opt T} (k : Fin opt.rawBuffer.toNat) {ring : Ring size T}
    (hidle : ∀ j, j ≠ k → (s.ringBuffs j).producer = .idle) (hr : ring.producer = .idle)
    (j : Fin opt.rawBuffer.toNat) : (Function.update s.ringBuffs k ring j).producer = .idle := by
  by_cases hj : j = k
  · rw [hj, Function.update_self, hr]
  · rw [Function.update_of_ne hj]
    exact hidle j hj

end Rings

omit [NeZero size] in
theorem nextIndex (s : Process size opt T) (cursor : Fin opt.rawBuffer.toNat)
    (h : s.rrIndex.toNat = cursor) :
    ((s.rrIndex + 1) % opt.rawBuffer).toNat = slot cursor 1 := by
  have hlt := cursor.isLt
  have hw := opt.rawBuffer.isLt
  rw [BitVec.toNat_umod, BitVec.toNat_add, h]
  change (cursor.val + 1) % 2 ^ 32 % _ = (cursor.val + 1) % _
  rw [Nat.mod_eq_of_lt (show cursor.val + 1 < 2 ^ 32 by omega)]

section Steps

variable {s s' : Process size opt T} {d : Distributor opt.rawBuffer.toNat T} {telemetric : T}
  {i : BitVec 32} {o : Option (ExportEvent opt T)}

theorem outside_matches (hm : Matches s d) (hcall : s.call = .outside)
    (h : reportStep telemetric s = some (s', o)) : ∃ d', Advances size d o d' ∧ Matches s' d' := by
  have hc := hm.call
  rw [hcall] at hc
  obtain ⟨hp, hrr, hidle⟩ := hc
  have hskip : Matches { s with call := .counting } d := ⟨hm.rings, hp, hrr, hidle⟩
  rw [reportStep, hcall] at h
  dsimp only at h
  split at h
  · cases h
    exact ⟨d, rfl, hskip⟩
  · split at h
    · cases h
    · split at h
      · cases h
        exact ⟨_, Step.offer telemetric d hp, hm.rings, rfl, Nat.zero_le _, hrr, hidle⟩
      · cases h
        exact ⟨d, rfl, hskip⟩

theorem counting_matches (hm : Matches s d) (hcall : s.call = .counting)
    (h : reportStep telemetric s = some (s', o)) : ∃ d', Advances size d o d' ∧ Matches s' d' := by
  have hc := hm.call
  rw [hcall] at hc
  rw [reportStep, hcall] at h
  cases h
  exact ⟨d, rfl, hm.rings, hc⟩

theorem loop_matches {next : T} (hm : Matches s d) (hcall : s.call = .loop telemetric i)
    (h : reportStep next s = some (s', o)) : ∃ d', Advances size d o d' ∧ Matches s' d' := by
  have hc := hm.call
  rw [hcall] at hc
  obtain ⟨hp, hi, hrr, hidle⟩ := hc
  rw [reportStep, hcall] at h
  dsimp only at h
  split at h
  · next hlt =>
    cases h
    refine ⟨d, rfl, hm.rings, hp, hlt, nextIndex s d.cursor hrr, fun k _ => hidle k, ?_⟩
    rw [hidle]
    rfl
  · next hge =>
    cases h
    have hn : i.toNat = opt.rawBuffer.toNat := by
      rw [BitVec.lt_def] at hge
      rw [BitVec.le_def] at hi
      omega
    rw [hn] at hp
    exact ⟨_, Step.reject telemetric d hp, hm.rings, rfl, hrr, hidle⟩

theorem push_matches {next : T} (hm : Matches s d) (hcall : s.call = .push telemetric i)
    (h : reportStep next s = some (s', o)) : ∃ d', Advances size d o d' ∧ Matches s' d' := by
  have hc := hm.call
  rw [hcall] at hc
  obtain ⟨hp, hi, hrr, hidle, hval⟩ := hc
  have hlt : s.rrIndex.toNat < opt.rawBuffer.toNat := hrr ▸ (slot d.cursor 1).isLt
  have hk : (⟨s.rrIndex.toNat, hlt⟩ : Fin opt.rawBuffer.toNat) = slot d.cursor 1 := Fin.ext hrr
  have hin : i.toNat < opt.rawBuffer.toNat := hi
  rw [reportStep, hcall] at h
  dsimp only at h
  rw [dif_pos hlt, hk] at h
  obtain ⟨ring, ⟨hs, hr, hv⟩ | ⟨hs, hfull, hr, hv⟩ | ⟨hs, hroom, hr, hv⟩⟩ :=
    producerStep_cases (s.ringBuffs (slot d.cursor 1)) (d.queues (slot d.cursor 1)) telemetric
      (hm.rings _)
  · rw [hs] at h
    cases h
    refine ⟨d, rfl, rings_update_same hm.rings _ hr, hp, hi, hrr, ?_, ?_⟩
    · intro k hne
      dsimp only
      rw [Function.update_of_ne hne]
      exact hidle k hne
    · dsimp only
      rw [Function.update_self, hv, hval]
      rfl
  · rw [hs, hval] at h
    cases h
    have hsucc : (i + 1).toNat = i.toNat + 1 := by
      have hw := opt.rawBuffer.isLt
      rw [BitVec.toNat_add]
      exact Nat.mod_eq_of_lt (show i.toNat + 1 < 2 ^ 32 by omega)
    have hle : i + 1 ≤ opt.rawBuffer := by
      rw [BitVec.le_def, hsucc]
      exact hin
    refine ⟨_, Step.refuse telemetric i.toNat d hp hin hfull, rings_update_same hm.rings _ hr, ?_, hle,
      hrr, idle_update _ hidle hv⟩
    rw [hsucc]
  · rw [hs, hval] at h
    rw [hval] at hr
    cases h
    exact ⟨_, Step.accept telemetric i.toNat d hp hin hroom, rings_update hm.rings _ hr, rfl, hrr,
      idle_update _ hidle hv⟩

theorem reportStep_matches (hm : Matches s d) (h : reportStep telemetric s = some (s', o)) :
    ∃ d', Advances size d o d' ∧ Matches s' d' := by
  cases hcall : s.call with
  | outside => exact outside_matches hm hcall h
  | loop v i => exact loop_matches hm hcall h
  | push v i => exact push_matches hm hcall h
  | counting => exact counting_matches hm hcall h

omit [NeZero opt.rawBuffer.toNat] in
theorem senderStep_producer (k j : Fin opt.rawBuffer.toNat) :
    ((senderStep k s).1.ringBuffs j).producer = (s.ringBuffs j).producer := by
  have hring : (senderStep k s).1.ringBuffs =
      Function.update s.ringBuffs k (consumerStep (s.ringBuffs k)).1 := by
    rw [senderStep]
    dsimp only
    split <;> rfl
  rw [hring]
  by_cases hj : j = k
  · rw [hj, Function.update_self, consumerStep_producer]
  · rw [Function.update_of_ne hj]

theorem senderStep_call (k : Fin opt.rawBuffer.toNat) (h : CallMatches s d s.call) :
    CallMatches (senderStep k s).1 d (senderStep k s).1.call := by
  have hcall : (senderStep k s).1.call = s.call := by
    rw [senderStep]
    dsimp only
    split <;> rfl
  have hrr : (senderStep k s).1.rrIndex = s.rrIndex := by
    rw [senderStep]
    dsimp only
    split <;> rfl
  rw [hcall]
  cases hc : s.call with
  | outside | counting =>
      rw [hc] at h
      simp only [CallMatches, hrr, senderStep_producer]
      exact h
  | loop v i =>
      rw [hc] at h
      simp only [CallMatches, hrr, senderStep_producer]
      exact h
  | push v i =>
      rw [hc] at h
      simp only [CallMatches, hrr, senderStep_producer]
      exact h

theorem senderStep_matches (hm : Matches s d) (k : Fin opt.rawBuffer.toNat) :
    ∃ d', Advances size d (senderStep k s).2 d' ∧ Matches (senderStep k s).1 d' := by
  have hcall := senderStep_call k hm.call
  obtain ⟨ring, ⟨hs, hr⟩ | ⟨hs, hq, hr⟩ | ⟨v, q, hq, hs, hr⟩⟩ :=
    consumerStep_cases (s.ringBuffs k) (d.queues k) (hm.rings k)
  · rw [senderStep, hs] at hcall ⊢
    exact ⟨d, rfl, rings_update_same hm.rings k hr, hcall⟩
  · rw [senderStep, hs] at hcall ⊢
    exact ⟨d, rfl, rings_update_same hm.rings k hr, hcall⟩
  · rw [senderStep, hs] at hcall ⊢
    refine ⟨_, Step.take k v q d hq, rings_update hm.rings k hr, ?_⟩
    dsimp only at hcall ⊢
    cases hc : s.call with
    | outside | counting =>
        rw [hc] at hcall
        exact hcall
    | loop w i =>
        rw [hc] at hcall
        exact hcall
    | push w i =>
        rw [hc] at hcall
        exact hcall

theorem exportStep_matches (hm : Matches s d) (h : ExportStep s o s') :
    ∃ d', Advances size d o d' ∧ Matches s' d' := by
  cases h with
  | report telemetric _ _ _ h => exact reportStep_matches hm h
  | sender k => exact senderStep_matches hm k

end Steps

/-- The exporter refines the distribution over its rings. -/
theorem exporter_refines : Simulation (exporter size opt T)
    (distribution opt.rawBuffer.toNat (size - 1) T) Matches where
  initial := by
    rintro s ⟨hempty, hrr, hcall, -, -⟩
    refine ⟨⟨fun _ => [], 0, none⟩, ⟨fun _ => rfl, rfl⟩, fun k => represents_empty _ (hempty k), ?_⟩
    rw [hcall]
    refine ⟨rfl, ?_, fun k => (hempty k).2.2.1⟩
    rw [hrr]
    rfl
  step := by
    intro s d o s' hm hs
    obtain ⟨d', ha, hm'⟩ := exportStep_matches hm hs
    refine ⟨d', ?_, hm'⟩
    cases o with
    | none =>
        cases ha
        exact .nil
    | some e => exact Automaton.Path.single ha

end IntPlatform.Exporter.SendData
