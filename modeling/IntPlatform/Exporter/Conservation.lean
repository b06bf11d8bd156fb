import IntPlatform.Exporter.SendData

namespace IntPlatform.Exporter.Conservation

open Library.Traces Library.CircularIndex Library.RoundRobin Collector.Records RingBuffer SendData

variable {size : Nat} [NeZero size] {opt : Options} {T : Type}

def pendingRecord : Call T → Option T
  | .outside | .counting => none
  | .loop telemetric _ => some telemetric
  | .push telemetric _ => some telemetric

theorem reportStep_pktDrop {telemetric : T} {s s' : Process size opt T} {o : Option (ExportEvent opt T)}
    (h : reportStep telemetric s = some (s', o)) :
    s'.pktDrop = s.pktDrop + BitVec.ofNat 64 (rejects o.toList).length := by
  have hzero : s.pktDrop = s.pktDrop + BitVec.ofNat 64 0 := (BitVec.add_zero _).symm
  rw [reportStep] at h
  cases hcall : s.call with
  | outside =>
      rw [hcall] at h
      dsimp only at h
      split at h
      · cases h
        exact hzero
      · split at h
        · cases h
        · split at h <;> cases h <;> exact hzero
  | loop v i =>
      rw [hcall] at h
      dsimp only at h
      split at h
      · cases h
        exact hzero
      · cases h
        rfl
  | push v i =>
      rw [hcall] at h
      dsimp only at h
      split at h
      · split at h <;> cases h <;> exact hzero
      · cases h
  | counting =>
      rw [hcall] at h
      cases h
      exact hzero

theorem senderStep_pktDrop (k : Fin opt.rawBuffer.toNat) (s : Process size opt T) :
    (senderStep k s).1.pktDrop =
      s.pktDrop + BitVec.ofNat 64 (rejects (senderStep k s).2.toList).length := by
  have hzero : s.pktDrop = s.pktDrop + BitVec.ofNat 64 0 := (BitVec.add_zero _).symm
  rw [senderStep]
  dsimp only
  split <;> exact hzero

theorem pktDrop_eq {es : List (ExportEvent opt T)} {s : Process size opt T}
    (h : (exporter size opt T).Run es s) : s.pktDrop = BitVec.ofNat 64 (rejects es).length := by
  refine Automaton.Run.invariant (fun es s => s.pktDrop = BitVec.ofNat 64 (rejects es).length) h ?_ ?_
  · rintro s ⟨-, -, -, -, hdrop⟩
    exact hdrop
  · intro es s o s' hi hs
    have hs' : s'.pktDrop = s.pktDrop + BitVec.ofNat 64 (rejects o.toList).length := by
      cases hs with
      | report telemetric _ _ _ h => exact reportStep_pktDrop h
      | sender k => exact senderStep_pktDrop k s
    have hr : rejects (es ++ o.toList) = rejects es ++ rejects o.toList := settledAs_append es _ none
    rw [hs', hi, hr, List.length_append, BitVec.ofNat_add]

variable [NeZero opt.rawBuffer.toNat]

section Matches

variable {s : Process size opt T} {d : Distributor opt.rawBuffer.toNat T}

theorem matches_contents (hm : Matches s d) (k : Fin opt.rawBuffer.toNat) :
    (s.ringBuffs k).contents = d.queues k := (hm.rings k).contents_eq

theorem matches_pending (hm : Matches s d) : d.pending.map Prod.fst = pendingRecord s.call := by
  have hc := hm.call
  cases h : s.call with
  | outside | loop v i | push v i | counting =>
      rw [h] at hc
      rw [hc.1]
      rfl

theorem matches_index (hm : Matches s d) : s.rrIndex < opt.rawBuffer := by
  have hc := hm.call
  rw [BitVec.lt_def]
  cases h : s.call with
  | outside | counting =>
      rw [h] at hc
      exact hc.2.1 ▸ d.cursor.isLt
  | loop v i =>
      rw [h] at hc
      exact hc.2.2.1 ▸ d.cursor.isLt
  | push v i =>
      rw [h] at hc
      exact hc.2.2.1 ▸ (slot d.cursor 1).isLt

theorem matches_cursor (hm : Matches s d) (hp : d.pending = none) : s.rrIndex.toNat = d.cursor := by
  have hc := hm.call
  cases h : s.call with
  | outside | counting =>
      rw [h] at hc
      exact hc.2.1
  | loop v i | push v i =>
      rw [h, CallMatches, hp] at hc
      cases hc.1

end Matches

theorem rejected_call {s s₁ s₂ s₃ : Process size opt T} {d : Distributor opt.rawBuffer.toNat T}
    (hm : Matches s d) {v w : T} {mid : List (ExportEvent opt T)}
    (hoffer : ExportStep s (some (.offered v)) s₁) (hmid : (exporter size opt T).Path s₁ mid s₂)
    (hnone : offers mid = []) (hreject : ExportStep s₂ (some (.rejected w)) s₃) :
    w = v ∧ ((refusals mid).map Prod.fst).Nodup ∧ (∀ k, (k, v) ∈ refusals mid) ∧ outcomes mid = [] ∧
      (∀ k, (s.ringBuffs k).contents = takes k mid ++ (s₃.ringBuffs k).contents) ∧
      s₃.rrIndex = s.rrIndex := by
  obtain ⟨d₁, hd₁, hm₁⟩ := exportStep_matches hm hoffer
  obtain ⟨d₂, hp, hm₂⟩ := exporter_refines.path hm₁ hmid
  obtain ⟨d₃, hd₃, hm₃⟩ := exportStep_matches hm₂ hreject
  obtain ⟨rfl, hr, ho, hcursor⟩ := rejected_scan hd₁ hp hnone hd₃
  have hq (k : Fin opt.rawBuffer.toNat) : d.queues k = takes k mid ++ d₃.queues k := by
    have ha := accepts_path k hp
    rw [accepts, settledAs, ho] at ha
    cases hd₁
    cases hd₃
    exact (List.append_nil _).symm.trans ha
  have hidle : d.pending = none ∧ d₃.pending = none := by
    cases hd₁ with
    | offer _ _ hnone =>
        cases hd₃
        exact ⟨hnone, rfl⟩
  refine ⟨rfl, ?_, ?_, ho, ?_, ?_⟩
  · rw [hr]
    exact round_nodup d.cursor w
  · intro k
    rw [hr]
    exact mem_round d.cursor w k
  · intro k
    rw [matches_contents hm, matches_contents hm₃, hq]
  · apply BitVec.eq_of_toNat_eq
    rw [matches_cursor hm hidle.1, matches_cursor hm₃ hidle.2, hcursor]

/-- No record is lost or duplicated between report_to_influx and the senders. -/
theorem exporter_conserves (size : Nat) [NeZero size] (opt : Options) [NeZero opt.rawBuffer.toNat]
    (T : Type) (es : List (ExportEvent opt T)) (s : Process size opt T)
    (h : (exporter size opt T).Run es s) :
    offers es = (outcomes es).map Prod.fst ++ (pendingRecord s.call).toList ∧
      (∀ k, accepts k es = takes k es ++ (s.ringBuffs k).contents) ∧
      s.pktDrop = BitVec.ofNat 64 (rejects es).length ∧
      s.rrIndex < opt.rawBuffer ∧
      (∀ pre k v post, es = pre ++ .refused k v :: post →
        (accepts k pre).length = (takes k pre).length + (size - 1)) ∧
      ∀ v w mid s₁ s₂ s₃, ExportStep s (some (.offered v)) s₁ → (exporter size opt T).Path s₁ mid s₂ →
        offers mid = [] → ExportStep s₂ (some (.rejected w)) s₃ →
        w = v ∧ ((refusals mid).map Prod.fst).Nodup ∧ (∀ k, (k, v) ∈ refusals mid) ∧
          outcomes mid = [] ∧
          (∀ k, (s.ringBuffs k).contents = takes k mid ++ (s₃.ringBuffs k).contents) ∧
          s₃.rrIndex = s.rrIndex := by
  obtain ⟨d, hd, hm⟩ := exporter_refines.run h
  refine ⟨?_, ?_, pktDrop_eq h, matches_index hm, ?_, ?_⟩
  · rw [offers_eq hd, matches_pending hm]
  · intro k
    rw [accepts_eq k hd, matches_contents hm]
  · rintro pre k v post rfl
    exact refused_full hd
  · intro v w mid s₁ s₂ s₃ hoffer hmid hnone hreject
    exact rejected_call hm hoffer hmid hnone hreject

/-- The steps in the order of a schedule: a record is for the packet-processing
thread, a number for the sender that has it. -/
def runMoves : List (T ⊕ Fin opt.rawBuffer.toNat) → Process size opt T →
    Option (List (ExportEvent opt T) × Process size opt T)
  | [], s => some ([], s)
  | .inl telemetric :: ms, s =>
      (reportStep telemetric s).bind fun p =>
        (runMoves ms p.1).map fun q => (p.2.toList ++ q.1, q.2)
  | .inr k :: ms, s =>
      (runMoves ms (senderStep k s).1).map fun q => ((senderStep k s).2.toList ++ q.1, q.2)

omit [NeZero opt.rawBuffer.toNat] in
theorem runMoves_path (ms : List (T ⊕ Fin opt.rawBuffer.toNat)) (s t : Process size opt T)
    (es : List (ExportEvent opt T)) (h : runMoves ms s = some (es, t)) :
    (exporter size opt T).Path s es t := by
  induction ms generalizing s es with
  | nil =>
      cases h
      exact .nil
  | cons m ms ih =>
      cases m with
      | inl telemetric =>
          obtain ⟨⟨s₁, o⟩, hs, hq⟩ := Option.bind_eq_some_iff.mp h
          obtain ⟨⟨es', t'⟩, hrun, he⟩ := Option.map_eq_some_iff.mp hq
          cases he
          have hstep : (exporter size opt T).step s o s₁ := .report telemetric s s₁ o hs
          exact Automaton.Path.trans (Automaton.Path.single hstep) (ih s₁ es' hrun)
      | inr k =>
          obtain ⟨⟨es', t'⟩, hrun, he⟩ := Option.map_eq_some_iff.mp h
          cases he
          have hstep : (exporter size opt T).step s (senderStep k s).2 (senderStep k s).1 := .sender k s
          exact Automaton.Path.trans (Automaton.Path.single hstep) (ih _ es' hrun)

def sampleOptions : Options := ⟨1, 0, 1, 1⟩

instance : NeZero sampleOptions.rawBuffer.toNat := ⟨by decide⟩

def sampleProcess : Process 2 sampleOptions Nat := ⟨fun _ => Ring.start fun _ => 0, 0, .outside, 0, 0⟩

def sampleMoves : List (Nat ⊕ Fin sampleOptions.rawBuffer.toNat) :=
  [.inl 7, .inl 0, .inl 0, .inl 0, .inl 0, .inl 0, .inl 0, .inl 8, .inl 0, .inl 0, .inl 0, .inl 0,
    .inr 0, .inr 0, .inr 0, .inr 0]

theorem exporter_conserves_sample :
    ∃ s, (exporter 2 sampleOptions Nat).Run [.offered 7, .accepted 0 7, .offered 8, .refused 0 8,
      .rejected 8, .taken 0 7] s ∧ s.pktDrop = 1 ∧ (s.ringBuffs 0).contents = [] := by
  have hrun : ∃ s, runMoves sampleMoves sampleProcess = some ([.offered 7, .accepted 0 7, .offered 8,
      .refused 0 8, .rejected 8, .taken 0 7], s) := ⟨_, rfl⟩
  obtain ⟨s, hs⟩ := hrun
  have h : (exporter 2 sampleOptions Nat).Run _ s :=
    ⟨sampleProcess, ⟨fun _ => ⟨rfl, rfl, rfl, rfl⟩, rfl, rfl, rfl, rfl⟩, runMoves_path _ _ _ _ hs⟩
  obtain ⟨-, hacc, hdrop, -⟩ := exporter_conserves 2 sampleOptions Nat _ s h
  have hk : [7] ++ [] = [7] ++ (s.ringBuffs 0).contents := hacc 0
  exact ⟨s, h, hdrop, (List.append_cancel_left hk).symm⟩

end IntPlatform.Exporter.Conservation
