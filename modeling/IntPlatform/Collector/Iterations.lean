import IntPlatform.Collector.Runs

namespace IntPlatform.Collector.Iterations

open Library.Formats Records ProcessPacket Outcome Buffers Loop Runs

/-- What the environment does in one pass of the loop: the frame that recvfrom
delivers, or none when it fails, and what sendData returns if it is called. -/
structure Event where
  received : Option (List Byte)
  ret : BitVec 32

/-- A call that fails leaves the buffer as a frame without bytes does. -/
def Event.frame (e : Event) : List Byte := e.received.getD []

def exitSuccess : BitVec 32 := 0

def reportToInflux (opt : Options) (st : Memory) (tmpHdr : TelemetricHdr) (ret : BitVec 32) :
    Except Fault (Option TelemetricHdr × Memory) :=
  if opt.hostValid ≠ 0 then
    if opt.smplRate = 0 then .error .divisionByZero
    else if st.pktCnt % opt.smplRate.setWidth 64 = 0 then
      .ok (some tmpHdr, if ret ≠ exitSuccess then { st with pktDrop := st.pktDrop + 1 } else st)
    else .ok (none, st)
  else .ok (none, st)

/-- One pass of the loop. The source does not look at what recvfrom returns. -/
def iteration (opt : Options) (st : Memory) (buffer : List Byte) (e : Event) :
    Except Fault (Option TelemetricHdr × Memory) := do
  let (tmpHdr, st) ← processPacket opt st (recvfrom e.frame buffer)
  let (exported, st) ← reportToInflux opt st tmpHdr e.ret
  pure (exported, { st with pktCnt := st.pktCnt + 1 })

def passes (opt : Options) (st : Memory) (buffer : List Byte) :
    List Event → List (Option TelemetricHdr × Memory) × Option Fault
  | [] => ([], none)
  | e :: es =>
      match iteration opt st buffer e with
      | .error fault => ([], some fault)
      | .ok pass =>
          let rest := passes opt pass.2 (recvfrom e.frame buffer) es
          (pass :: rest.1, rest.2)

def Sampled (opt : Options) (st : Memory) : Prop :=
  opt.hostValid ≠ 0 ∧ st.pktCnt % opt.smplRate.setWidth 64 = 0

def ZeroRate (opt : Options) : Prop := opt.hostValid ≠ 0 ∧ opt.smplRate = 0

instance (opt : Options) (st : Memory) : Decidable (Sampled opt st) := inferInstanceAs (Decidable (_ ∧ _))

instance (opt : Options) : Decidable (ZeroRate opt) := inferInstanceAs (Decidable (_ ∧ _))

def passed (opt : Options) (ret : BitVec 32) (r : TelemetricHdr × Memory) : Option TelemetricHdr × Memory :=
  if Sampled opt r.2 then
    (some r.1, { r.2 with
      pktDrop := if ret ≠ exitSuccess then r.2.pktDrop + 1 else r.2.pktDrop, pktCnt := r.2.pktCnt + 1 })
  else (none, { r.2 with pktCnt := r.2.pktCnt + 1 })

theorem reportToInflux_eq (opt : Options) (st : Memory) (tmpHdr : TelemetricHdr) (ret : BitVec 32) :
    (do
      let (exported, st) ← reportToInflux opt st tmpHdr ret
      pure (exported, { st with pktCnt := st.pktCnt + 1 })) =
    (if ZeroRate opt then .error .divisionByZero else .ok (passed opt ret (tmpHdr, st)) :
      Except Fault (Option TelemetricHdr × Memory)) := by
  by_cases hhost : opt.hostValid = 0
  · have hrate : ¬ ZeroRate opt := fun h => h.1 hhost
    have hsampled : ¬ Sampled opt st := fun h => h.1 hhost
    rw [reportToInflux, if_neg (not_not.mpr hhost), if_neg hrate, passed, if_neg hsampled]
    rfl
  · by_cases hzero : opt.smplRate = 0
    · have hrate : ZeroRate opt := ⟨hhost, hzero⟩
      rw [reportToInflux, if_pos hhost, if_pos hzero, if_pos hrate]
      rfl
    · have hrate : ¬ ZeroRate opt := fun h => hzero h.2
      rw [reportToInflux, if_pos hhost, if_neg hzero, if_neg hrate, passed]
      by_cases hcnt : st.pktCnt % opt.smplRate.setWidth 64 = 0
      · have hsampled : Sampled opt st := ⟨hhost, hcnt⟩
        rw [if_pos hcnt, if_pos hsampled]
        split
        · rfl
        · rfl
      · have hsampled : ¬ Sampled opt st := fun h => hcnt h.2
        rw [if_neg hcnt, if_neg hsampled]
        rfl

theorem iteration_eq (opt : Options) (st : Memory) (buffer : List Byte) (e : Event)
    (h : buffer.length = pktBufSize) :
    iteration opt st buffer e =
      if (influxOf (recvfrom e.frame buffer)).hopMetaLen = 0 then .error .divisionByZero
      else if ZeroRate opt then .error .divisionByZero
      else .ok (passed opt e.ret (recorded opt st (recvfrom e.frame buffer))) := by
  rw [iteration, processPacket_buffer opt st _ (recvfrom_length e.frame buffer h)]
  by_cases hz : (influxOf (recvfrom e.frame buffer)).hopMetaLen = 0
  · rw [if_pos hz, if_pos hz]
    rfl
  · rw [if_neg hz, if_neg hz, if_pos (metaCntOf_lt_reach _)]
    exact reportToInflux_eq opt _ _ e.ret

theorem passed_state (opt : Options) (ret : BitVec 32) (r : TelemetricHdr × Memory) :
    (passed opt ret r).2.flowMap = r.2.flowMap ∧
      (passed opt ret r).2.prevTimestamps = r.2.prevTimestamps ∧
      (passed opt ret r).2.pktCnt = r.2.pktCnt + 1 := by
  rw [passed]
  split
  · exact ⟨rfl, rfl, rfl⟩
  · exact ⟨rfl, rfl, rfl⟩

section Outcome

variable (opt : Options) (st : Memory) (buffer : List Byte) (e : Event)
  (h : buffer.length = pktBufSize)

include h

theorem iteration_ok (hb : (influxOf (recvfrom e.frame buffer)).hopMetaLen ≠ 0) (hrate : ¬ ZeroRate opt) :
    iteration opt st buffer e = .ok (passed opt e.ret (recorded opt st (recvfrom e.frame buffer))) := by
  rw [iteration_eq opt st buffer e h, if_neg hb, if_neg hrate]

theorem iteration_fault
    (hb : ¬ ((influxOf (recvfrom e.frame buffer)).hopMetaLen ≠ 0 ∧ ¬ ZeroRate opt)) :
    iteration opt st buffer e = .error .divisionByZero := by
  rw [iteration_eq opt st buffer e h]
  by_cases hz : (influxOf (recvfrom e.frame buffer)).hopMetaLen = 0
  · rw [if_pos hz]
  · by_cases hrate : ZeroRate opt
    · rw [if_neg hz, if_pos hrate]
    · exact absurd ⟨hz, hrate⟩ hb

end Outcome

theorem passes_divide_iff (opt : Options) (st : Memory) (buffer : List Byte) (events : List Event)
    (h : buffer.length = pktBufSize) :
    (passes opt st buffer events).2 ≠ some .divisionByZero ↔
      ∀ b ∈ buffersOf buffer (events.map Event.frame), (influxOf b).hopMetaLen ≠ 0 ∧ ¬ ZeroRate opt := by
  induction events generalizing st buffer with
  | nil => exact iff_of_true (fun hne => nomatch hne) fun b hb => absurd hb List.not_mem_nil
  | cons e events ih =>
      rw [passes, List.map_cons, buffersOf, List.forall_mem_cons]
      by_cases hb : (influxOf (recvfrom e.frame buffer)).hopMetaLen ≠ 0 ∧ ¬ ZeroRate opt
      · rw [iteration_ok opt st buffer e h hb.1 hb.2, and_iff_right hb]
        exact ih _ _ (recvfrom_length e.frame buffer h)
      · rw [iteration_fault opt st buffer e h hb]
        exact iff_of_false (fun hne => hne rfl) fun hall => hb hall.1

end IntPlatform.Collector.Iterations
