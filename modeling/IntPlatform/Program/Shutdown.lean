import IntPlatform.Program.Delivery

namespace IntPlatform.Program.Shutdown

open Library.Formats Library.Mealy Library.RoundRobin Library.Schedules
open Collector.Records Collector.ProcessPacket Collector.Arguments Collector.Loop Collector.Runs
open Exporter.RingBuffer Exporter.SendData Exporter.Conservation Exporter.Sender Exporter.Transports
open Threads Collected Delivery

def Move.isMain {opt : Options} : Move opt → Bool
  | .main _ => true
  | _ => false

def Event.isFrame {opt : Options} : Threads.Event opt → Bool
  | .received _ => true
  | _ => false

theorem countP_isFrame {opt : Options} (es : List (Threads.Event opt)) :
    es.countP Event.isFrame = (frames es).length := by
  induction es with
  | nil => rfl
  | cons e es ih =>
      rw [List.countP_cons, ih]
      cases e <;> rfl

section Steps

variable {size : Nat} {opt : Options}

def producerLeft {T : Type} : Producer size T → Nat
  | .idle => 4
  | .loadedHead _ _ _ => 3
  | .writing _ _ _ => 2
  | .storing _ _ _ => 1

def pushLeft {T : Type} (s : Process size opt T) : Nat :=
  if h : s.rrIndex.toNat < opt.rawBuffer.toNat then producerLeft (s.ringBuffs ⟨_, h⟩).producer else 0

/-- The steps that report_to_influx and the counting still need, at the most. A
ring takes five: one to select it and four to push. -/
def callLeft {T : Type} (s : Process size opt T) : Nat :=
  match s.call with
  | .outside => 5 * opt.rawBuffer.toNat + 3
  | .loop _ i => 5 * (opt.rawBuffer.toNat - i.toNat) + 2
  | .push _ i => 5 * (opt.rawBuffer.toNat - i.toNat - 1) + 2 + pushLeft s
  | .counting => 1

/-- A push is in progress only while rings are left. -/
def InRange {T : Type} (s : Process size opt T) : Prop :=
  match s.call with
  | .push _ i => i < opt.rawBuffer
  | _ => True

theorem producerLeft_le {T : Type} (p : Producer size T) : 1 ≤ producerLeft p ∧ producerLeft p ≤ 4 := by
  cases p <;> simp [producerLeft]

theorem pushLeft_le {T : Type} (s : Process size opt T) : pushLeft s ≤ 4 := by
  rw [pushLeft]
  split
  · exact (producerLeft_le _).2
  · omega

theorem callLeft_le {T : Type} (s : Process size opt T) :
    1 ≤ callLeft s ∧ callLeft s ≤ 5 * opt.rawBuffer.toNat + 3 := by
  have hpush := pushLeft_le s
  have hstuck (h : opt.rawBuffer.toNat = 0) : pushLeft s = 0 := by
    rw [pushLeft, dif_neg (by omega)]
  rw [callLeft]
  split <;> omega

variable [NeZero size]

theorem producerStep_left {T : Type} (value : T) (r : Ring size T) :
    (∃ v, (producerStep value r).2 = some (.push v)) ∨ (∃ v, (producerStep value r).2 = some (.full v)) ∨
      producerLeft (producerStep value r).1.producer < producerLeft r.producer := by
  rw [producerStep]
  cases r.producer with
  | idle => exact .inr (.inr (Nat.lt_succ_self 3))
  | loadedHead v head nextHead =>
      dsimp only
      split
      · exact .inr (.inl ⟨v, rfl⟩)
      · exact .inr (.inr (Nat.lt_succ_self 2))
  | writing v head nextHead => exact .inr (.inr (Nat.lt_succ_self 1))
  | storing v head nextHead => exact .inl ⟨v, rfl⟩

section Report

variable {tmpHdr v : TelemetricHdr} {i : BitVec 32} {s s' : Process size opt TelemetricHdr}
  {o : Option (ExportEvent opt TelemetricHdr)} (h : reportStep tmpHdr s = some (s', o))

include h

theorem outside_left (hcall : s.call = .outside) : InRange s' ∧ callLeft s' < callLeft s := by
  rw [reportStep, hcall] at h
  dsimp only at h
  have hleft : callLeft s = 5 * opt.rawBuffer.toNat + 3 := by rw [callLeft, hcall]
  have hcounting (t : Process size opt TelemetricHdr) (ht : t.call = .counting) : callLeft t < callLeft s := by
    rw [hleft, callLeft, ht]
    exact Nat.le_add_left 2 _
  split at h
  · cases h
    exact ⟨trivial, hcounting _ rfl⟩
  · split at h
    · cases h
    · split at h
      · cases h
        refine ⟨trivial, ?_⟩
        rw [hleft]
        exact Nat.lt_succ_self _
      · cases h
        exact ⟨trivial, hcounting _ rfl⟩

theorem loop_left (hcall : s.call = .loop v i) : InRange s' ∧ callLeft s' < callLeft s := by
  rw [reportStep, hcall] at h
  dsimp only at h
  have hleft : callLeft s = 5 * (opt.rawBuffer.toNat - i.toNat) + 2 := by rw [callLeft, hcall]
  split at h
  · next hlt =>
    cases h
    refine ⟨hlt, ?_⟩
    rw [BitVec.lt_def] at hlt
    have hpush := pushLeft_le ({ s with
      rrIndex := (s.rrIndex + 1) % opt.rawBuffer, call := .push v i } : Process size opt _)
    rw [hleft, callLeft]
    dsimp only at hpush ⊢
    omega
  · cases h
    refine ⟨trivial, ?_⟩
    rw [hleft, callLeft]
    exact Nat.lt_of_lt_of_le (Nat.lt_succ_self 1) (Nat.le_add_left 2 _)

theorem push_left (hcall : s.call = .push v i) (hlt : i < opt.rawBuffer) :
    InRange s' ∧ callLeft s' < callLeft s := by
  rw [reportStep, hcall] at h
  dsimp only at h
  have hi := BitVec.lt_def.mp hlt
  split at h
  · next hk =>
    have hleft : callLeft s = 5 * (opt.rawBuffer.toNat - i.toNat - 1) + 2 +
        producerLeft (s.ringBuffs ⟨_, hk⟩).producer := by
      rw [callLeft, hcall, pushLeft, dif_pos hk]
    have hpos := (producerLeft_le (s.ringBuffs ⟨_, hk⟩).producer).1
    split at h
    · cases h
      refine ⟨trivial, ?_⟩
      rw [hleft, callLeft]
      dsimp only
      omega
    · next w hfull =>
      cases h
      refine ⟨trivial, ?_⟩
      have hsucc : (i + 1).toNat = i.toNat + 1 := by
        have hw := opt.rawBuffer.isLt
        rw [BitVec.toNat_add]
        exact Nat.mod_eq_of_lt (show i.toNat + 1 < 2 ^ 32 by omega)
      rw [hleft, callLeft]
      dsimp only
      rw [hsucc]
      omega
    · next hpush hfull =>
      cases h
      refine ⟨hlt, ?_⟩
      obtain ⟨w, hw⟩ | ⟨w, hw⟩ | hless := producerStep_left v (s.ringBuffs ⟨_, hk⟩)
      · exact absurd hw (hpush w)
      · exact absurd hw (hfull w)
      · rw [hleft, callLeft, pushLeft]
        dsimp only
        rw [dif_pos hk, Function.update_self]
        omega
  · cases h

theorem reportStep_left (hrange : InRange s) :
    InRange s' ∧ (s'.call ≠ .outside → callLeft s' < callLeft s) := by
  cases hcall : s.call with
  | outside => exact (outside_left h hcall).imp_right fun hless _ => hless
  | loop v i => exact (loop_left h hcall).imp_right fun hless _ => hless
  | push v i =>
      rw [InRange, hcall] at hrange
      exact (push_left h hcall hrange).imp_right fun hless _ => hless
  | counting =>
      rw [reportStep, hcall] at h
      cases h
      exact ⟨trivial, fun hc => absurd rfl hc⟩

end Report

theorem senderStep_left {T : Type} (k : Fin opt.rawBuffer.toNat) (s : Process size opt T) :
    callLeft (senderStep k s).1 = callLeft s ∧ (InRange (senderStep k s).1 ↔ InRange s) := by
  have hkeeps : (senderStep k s).1.call = s.call ∧ (senderStep k s).1.rrIndex = s.rrIndex := by
    rw [senderStep]
    dsimp only
    split <;> exact ⟨rfl, rfl⟩
  have hpush : pushLeft (senderStep k s).1 = pushLeft s := by
    simp only [pushLeft, hkeeps.2, senderStep_producer]
  refine ⟨?_, ?_⟩
  · rw [callLeft, callLeft, hkeeps.1, hpush]
  · rw [InRange, InRange, hkeeps.1]

end Steps

section Main

variable {size : Nat} [NeZero size] {opt : Options} {L : Type} {s t u : System size opt L}
  {o : Option (Threads.Event opt)} {sender : Fin opt.rawBuffer.toNat → Machine L Pop Reaction}
  {ms : List (Move opt)} {es : List (Threads.Event opt)}

def mainLeft (s : System size opt L) : Nat :=
  match s.main with
  | .testing => 2
  | .receiving => 1
  | .reporting _ => 2 + callLeft s.process
  | .ended => 0

omit [NeZero size] in
theorem mainLeft_behind (s : System size opt L) (tmpHdr : TelemetricHdr) {process : Process size opt TelemetricHdr} {c : Nat}
    (hpos : 1 ≤ c) (hless : process.call ≠ .outside → callLeft process < c) :
    mainLeft { s with process := process, main := Main.behind tmpHdr process.call } < 2 + c := by
  rw [mainLeft]
  dsimp only
  cases hcall : process.call with
  | outside =>
      dsimp only [Main.behind]
      omega
  | loop v i | push v i | counting =>
      have hlt := hless fun hc => by rw [hcall] at hc; cases hc
      dsimp only [Main.behind]
      omega

/-- A step of the main thread needs one of these, except that a frame brings
those of report_to_influx. -/
theorem move_left {m : Move opt} (hrange : InRange t.process) (h : move sender m t = some (u, o)) :
    InRange u.process ∧ [m].countP Move.isMain + mainLeft u ≤
      mainLeft t + (5 * opt.rawBuffer.toNat + 5) * o.toList.countP Event.isFrame := by
  cases m with
  | main frame =>
      have hone : ([.main frame] : List (Move opt)).countP Move.isMain = 1 := rfl
      rw [hone]
      obtain ⟨hm, rfl, rfl⟩ | ⟨tmpHdr, st, hm, -, rfl, rfl⟩ | ⟨tmpHdr, process, e, hm, hr, rfl, rfl⟩ :=
        mainStep_cases h
      · refine ⟨hrange, ?_⟩
        have hleft : mainLeft t = 2 := by rw [mainLeft, hm]
        have hnext : mainLeft { t with main := if t.stop then .ended else .receiving } ≤ 1 := by
          rw [mainLeft]
          dsimp only
          cases t.stop
          · exact Nat.le_refl 1
          · exact Nat.zero_le 1
        rw [hleft]
        omega
      · refine ⟨hrange, ?_⟩
        have hleft : mainLeft t = 1 := by rw [mainLeft, hm]
        have hle := (callLeft_le t.process).2
        have hframe : ([.received frame] : List (Threads.Event opt)).countP Event.isFrame = 1 := rfl
        rw [hleft, Option.toList_some, hframe, mainLeft]
        dsimp only
        omega
      · obtain ⟨hnext, hless⟩ := reportStep_left hr hrange
        refine ⟨hnext, ?_⟩
        have hleft : mainLeft t = 2 + callLeft t.process := by rw [mainLeft, hm]
        have hlt := mainLeft_behind t tmpHdr (callLeft_le t.process).1 hless
        rw [hleft]
        omega
  | sender k error =>
      have hzero : ([.sender k error] : List (Move opt)).countP Move.isMain = 0 := rfl
      rw [hzero, Nat.zero_add]
      obtain ⟨telemetric, -, rfl, rfl⟩ | ⟨popped, -, hstep, rfl⟩ := senderMove_cases (Option.some.inj h)
      · exact ⟨hrange, Nat.le_add_right _ _⟩
      · obtain ⟨hleft, hiff⟩ := senderStep_left k t.process
        refine ⟨hiff.mpr hrange, Nat.le_trans (Nat.le_of_eq ?_) (Nat.le_add_right _ _)⟩
        rw [mainLeft, mainLeft]
        dsimp only
        rw [hleft]
  | sigint =>
      cases h
      exact ⟨hrange, Nat.le_of_eq (Nat.zero_add _)⟩

theorem run_left (hrange : InRange s.process) (h : run (move sender) ms s = some (es, t)) :
    InRange t.process ∧ ms.countP Move.isMain + mainLeft t ≤
      mainLeft s + (5 * opt.rawBuffer.toNat + 5) * (frames es).length := by
  have hpaid := run_paid (fun s => InRange s.process) Move.isMain Event.isFrame
    (5 * opt.rawBuffer.toNat + 5) mainLeft (fun _ => 0) (fun m s t o hs hm => move_left hs hm) h hrange
  rw [countP_isFrame] at hpaid
  exact hpaid

def awaited (s : System size opt L) : Nat :=
  match s.main with
  | .receiving => 1
  | _ => 0

/-- Behind the signal no further frame is awaited. -/
theorem stopped_move {m : Move opt} (hstop : t.stop = true) (h : move sender m t = some (u, o)) :
    u.stop = true ∧ (frames o.toList).length + awaited u ≤ awaited t := by
  cases m with
  | main frame =>
      obtain ⟨hm, rfl, rfl⟩ | ⟨tmpHdr, st, hm, -, rfl, rfl⟩ | ⟨tmpHdr, process, e, hm, -, rfl, rfl⟩ :=
        mainStep_cases h
      · refine ⟨hstop, ?_⟩
        rw [hstop]
        exact Nat.zero_le _
      · refine ⟨hstop, ?_⟩
        rw [awaited, awaited, hm]
        exact Nat.le_refl 1
      · refine ⟨hstop, ?_⟩
        have hnone : frames (e.map Threads.Event.exported).toList = [] := by cases e <;> rfl
        have hmain : awaited { t with process := process, main := Main.behind tmpHdr process.call } = 0 := by
          rw [awaited]
          cases process.call <;> rfl
        rw [hnone, hmain]
        exact Nat.zero_le _
  | sender k error =>
      obtain ⟨telemetric, -, rfl, rfl⟩ | ⟨popped, -, hstep, rfl⟩ := senderMove_cases (Option.some.inj h)
      · refine ⟨hstop, Nat.le_of_eq ?_⟩
        cases ((sender k).out (t.senders k).loc ⟨telemetric, error⟩).sent <;> exact Nat.zero_add _
      · refine ⟨hstop, Nat.le_of_eq ?_⟩
        cases hstep <;> exact Nat.zero_add _
  | sigint =>
      cases h
      exact ⟨rfl, Nat.le_of_eq (Nat.zero_add _)⟩

theorem stopped_run (hstop : s.stop = true) (h : run (move sender) ms s = some (es, t)) :
    (frames es).length + awaited t ≤ awaited s := by
  have hinv := run_invariant (fun _ es t => t.stop = true ∧ (frames es).length + awaited t ≤ awaited s) h
    ⟨hstop, Nat.le_of_eq (Nat.zero_add _)⟩ ?_
  · exact hinv.2
  · rintro ms es t m u o ⟨ht, hle⟩ hm
    obtain ⟨hu, hstep⟩ := stopped_move ht hm
    refine ⟨hu, ?_⟩
    rw [frames, List.filterMap_append, List.length_append, ← frames, ← frames]
    omega

end Main

theorem Started.inRange {opt : Options} {L : Type} {size : Nat} [NeZero size] {start : L}
    {s : System size opt L} (hs : s.Started start) : InRange s.process := by
  rw [InRange, hs.process.2.2.1]
  trivial

section Enabled

variable {size : Nat} [NeZero size]

/-- report_to_influx stops at a sampling rate of zero, and nowhere else. -/
theorem reportStep_none_iff {opt : Options} {T : Type} (tmpHdr : T) (s : Process size opt T)
    (hindex : ∀ v i, s.call = .push v i → s.rrIndex.toNat < opt.rawBuffer.toNat) :
    reportStep tmpHdr s = none ↔ s.call = .outside ∧ opt.hostValid ≠ 0 ∧ opt.smplRate = 0 := by
  rw [reportStep]
  cases hcall : s.call with
  | outside =>
      dsimp only
      by_cases hhost : opt.hostValid = 0
      · rw [if_pos hhost]
        exact iff_of_false (by simp) fun h => h.2.1 hhost
      · rw [if_neg hhost]
        by_cases hrate : opt.smplRate = 0
        · rw [if_pos hrate]
          exact iff_of_true rfl ⟨rfl, hhost, hrate⟩
        · rw [if_neg hrate]
          refine iff_of_false ?_ fun h => hrate h.2.2
          split
          · simp
          · simp
  | loop v i =>
      dsimp only
      split
      · simp
      · simp
  | push v i =>
      dsimp only
      rw [dif_pos (hindex v i hcall)]
      split
      · simp
      · simp
      · simp
  | counting => simp

/-- What ends the main thread without the signal: the fault of a packet, or of
the sampling test. -/
def Faults {opt : Options} {L : Type} (frame : List Byte) (t : System size opt L) : Prop :=
  (t.main = .receiving ∧ ∃ fault, processPacket opt t.state (recvfrom frame t.buffer) = .error fault) ∨
    ((∃ tmpHdr, t.main = .reporting tmpHdr) ∧ t.process.call = .outside ∧ opt.hostValid ≠ 0 ∧
      opt.smplRate = 0)

theorem mainStep_none_iff {opt : Options} {L : Type} (frame : List Byte) (t : System size opt L)
    (hindex : ∀ v i, t.process.call = .push v i → t.process.rrIndex.toNat < opt.rawBuffer.toNat) :
    mainStep frame t = none ↔ t.main = .ended ∨ Faults frame t := by
  rw [mainStep, Faults]
  cases hm : t.main with
  | testing => simp
  | receiving =>
      dsimp only
      cases processPacket opt t.state (recvfrom frame t.buffer) with
      | error fault => simp
      | ok r => simp
  | reporting tmpHdr => simp [reportStep_none_iff tmpHdr t.process hindex]
  | ended => simp

variable {opt : ProgramOptions} {transport : Transport}
  {s t : System size opt.toOptions transport.Local} {ms : List (Move opt.toOptions)}
  {es : List (Threads.Event opt.toOptions)}

theorem run_index (hs : s.Started transport.start)
    (h : run (move (senders opt transport)) ms s = some (es, t)) (v : TelemetricHdr) (i : BitVec 32)
    (hcall : t.process.call = .push v i) : t.process.rrIndex.toNat < opt.rawBuffer.toNat := by
  have hrange := (run_left (Started.inRange hs) h).1
  rw [InRange, hcall] at hrange
  have hpos : 0 < opt.rawBuffer.toNat := Nat.zero_lt_of_lt hrange
  have : NeZero opt.rawBuffer.toNat := ⟨Nat.pos_iff_ne_zero.mp hpos⟩
  obtain ⟨d, -, hm⟩ := exporter_refines.run (run_exporter hs h)
  exact matches_index hm

end Enabled

/-- The main thread waits for nothing but frames: however the senders run, it
needs a bounded number of steps for each of them, and can always make the next
one until it has ended or faults. -/
theorem main_wait_free (size : Nat) [NeZero size] (opt : ProgramOptions) (transport : Transport)
    (s t : System size opt.toOptions transport.Local) (ms : List (Move opt.toOptions))
    (es : List (Threads.Event opt.toOptions)) (hs : s.Started transport.start)
    (h : run (move (senders opt transport)) ms s = some (es, t)) :
    ms.countP Move.isMain ≤ (5 * opt.rawBuffer.toNat + 5) * (frames es).length + 2 ∧
      ∀ frame, mainStep frame t = none ↔ t.main = .ended ∨ Faults frame t := by
  refine ⟨?_, fun frame => mainStep_none_iff frame t (run_index hs h)⟩
  have hleft := (run_left (Started.inRange hs) h).2
  have hstart : mainLeft s = 2 := by rw [mainLeft, hs.main]
  omega

theorem main_wait_free_sample : ∃ t es, run (move (senders Delivery.sampleOptions .http))
      (receiveMoves ++ passMoves) sampleStart = some (es, t) ∧
    (receiveMoves ++ passMoves).countP Move.isMain = 9 ∧
    9 ≤ (5 * Delivery.sampleOptions.rawBuffer.toNat + 5) * (frames es).length + 2 ∧
    mainStep [] t ≠ none := by
  have hpass : ∃ t, run (move (senders Delivery.sampleOptions .http)) passMoves sampleReceived =
      some ([.exported (.offered sampleRecord), .exported (.accepted sampleRing sampleRecord),
        .exported (.taken sampleRing sampleRecord)], t) ∧ t.main = .testing := by
    refine ⟨_, rfl, ?_⟩
    rfl
  obtain ⟨t, hpass, hmain⟩ := hpass
  have hrun := run_append receive_run hpass
  obtain ⟨hsteps, henabled⟩ :=
    main_wait_free sampleSize Delivery.sampleOptions .http sampleStart t _ _ sampleStart_started hrun
  refine ⟨t, _, hrun, rfl, hsteps, ?_⟩
  rw [Ne, henabled, Faults, hmain]
  simp

theorem mainLeft_le {size : Nat} {opt : Options} {L : Type} (s : System size opt L) :
    mainLeft s ≤ 5 * opt.rawBuffer.toNat + 5 := by
  have hle := (callLeft_le s.process).2
  rw [mainLeft]
  split <;> omega

theorem awaited_le {size : Nat} {opt : Options} {L : Type} (s : System size opt L) : awaited s ≤ 1 := by
  rw [awaited]
  split <;> omega

theorem awaited_left {size : Nat} {opt : Options} {L : Type} (s : System size opt L) :
    awaited s = 0 ∨ mainLeft s = 1 := by
  rw [awaited, mainLeft]
  cases s.main with
  | receiving => exact .inr rfl
  | testing | reporting tmpHdr | ended => exact .inl rfl

/-- The counter leaves out the record that the main thread is at. -/
theorem progress_counted {size : Nat} {opt : Options} {L : Type} {t : System size opt L}
    {records offered : List TelemetricHdr} (h : Progress records offered t) :
    ∃ reported rest, records = reported ++ rest ∧ rest.length ≤ 1 ∧
      t.process.pktCnt = BitVec.ofNat 64 reported.length := by
  cases h with
  | idle _ _ hn _ => exact ⟨records, [], (List.append_nil _).symm, Nat.zero_le 1, hn⟩
  | untested earlier tmpHdr _ _ hr hn _ | exporting earlier tmpHdr _ _ hr hn _ =>
      exact ⟨earlier, [tmpHdr], hr, Nat.le_refl 1, hn⟩

/-- The signal handler prints how many records were counted and how many were
dropped up to then, of which the last may not be counted yet. The main thread
receives one frame more at the most, and when it has ended every sampled record
was stored in a ring or dropped. -/
theorem sigint_stops (size : Nat) [NeZero size] (opt : ProgramOptions) (transport : Transport)
    (s t : System size opt.toOptions transport.Local) (before after : List (Move opt.toOptions))
    (es : List (Threads.Event opt.toOptions)) (hs : s.Started transport.start)
    (h : run (move (senders opt transport)) (before ++ .sigint :: after) s = some (es, t)) :
    ∃ es₁ u total drop es₂ reported rest,
      run (move (senders opt transport)) before s = some (es₁, u) ∧
      es = es₁ ++ .printed total drop :: es₂ ∧
      loopProccess opt.toOptions State.initial s.buffer (frames es₁) = .ok (reported ++ rest) ∧
      rest.length ≤ 1 ∧
      total = BitVec.ofNat 64 reported.length ∧
      drop = BitVec.ofNat 64 (rejects (exports es₁)).length ∧
      (frames es₂).length ≤ 1 ∧
      after.countP Move.isMain ≤ 5 * opt.rawBuffer.toNat + 6 ∧
      (t.main = .ended → ∃ records,
        loopProccess opt.toOptions State.initial s.buffer (frames es) = .ok records ∧
        sampled opt.toOptions records = (outcomes (exports es)).map Prod.fst) := by
  obtain ⟨es₁, u, es', hbefore, hrest, rfl⟩ := run_split h
  obtain ⟨v, o, es₂, hsig, hafter, rfl⟩ := run_cons hrest
  cases hsig
  have hf := run_follows hs.buffer hbefore (Started.follows hs)
  obtain ⟨reported, rest, hrecords, hone, htotal⟩ := progress_counted hf.progress
  refine ⟨es₁, u, _, _, es₂, reported, rest, hbefore, rfl, ?_, hone, htotal,
    pktDrop_eq (run_exporter hs hbefore), ?_, ?_, ?_⟩
  · exact (loopProccess_eq_ok _ _ _ _ hs.buffer _).mpr ⟨hf.processable, hrecords.symm⟩
  · have hframes := stopped_run rfl hafter
    have hle := awaited_le { u with stop := true }
    omega
  · have hframes := stopped_run rfl hafter
    have hrange := (run_left (Started.inRange hs) hbefore).1
    have hleft := (run_left (s := { u with stop := true }) hrange hafter).2
    have hle := mainLeft_le { u with stop := true }
    rcases awaited_left { u with stop := true } with hnone | hone
    · have hzero : (frames es₂).length = 0 := by omega
      rw [hzero] at hleft
      omega
    · have hle := awaited_le { u with stop := true }
      have hmul := Nat.mul_le_mul_left (5 * opt.rawBuffer.toNat + 5)
        (show (frames es₂).length ≤ 1 by omega)
      omega
  · intro hended
    have hall := run_follows hs.buffer h (Started.follows hs)
    obtain ⟨hcall, -, hoffers⟩ := hall.progress.at_idle fun r hr => by rw [hended] at hr; cases hr
    refine ⟨_, (loopProccess_eq_ok _ _ _ _ hs.buffer _).mpr ⟨hall.processable, rfl⟩, ?_⟩
    rw [← hoffers, (exporter_accounts (run_exporter hs h)).1, hcall]
    exact List.append_nil _

theorem sigint_stops_sample :
    ∃ t es records, run (move (senders Delivery.sampleOptions .http))
        (receiveMoves ++ .sigint :: (passMoves ++ [.main []])) sampleStart = some (es, t) ∧
      loopProccess Delivery.sampleOptions.toOptions State.initial sampleStart.buffer (frames es) =
        .ok records ∧
      sampled Delivery.sampleOptions.toOptions records = (outcomes (exports es)).map Prod.fst := by
  have hpass : ∃ t, run (move (senders Delivery.sampleOptions .http))
      (.sigint :: (passMoves ++ [.main []])) sampleReceived =
        some (.printed 0 0 :: [.exported (.offered sampleRecord),
          .exported (.accepted sampleRing sampleRecord), .exported (.taken sampleRing sampleRecord)], t) ∧
      t.main = .ended := by
    refine ⟨_, rfl, ?_⟩
    rfl
  obtain ⟨t, hpass, hended⟩ := hpass
  have hrun := run_append receive_run hpass
  obtain ⟨es₁, u, total, drop, es₂, reported, rest, -, -, -, -, -, -, -, -, hall⟩ :=
    sigint_stops sampleSize Delivery.sampleOptions .http sampleStart t _ _ _ sampleStart_started hrun
  obtain ⟨records, hloop, hsampled⟩ := hall hended
  exact ⟨t, _, records, hrun, hloop, hsampled⟩

end IntPlatform.Program.Shutdown
