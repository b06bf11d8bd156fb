import IntPlatform.Program.Threads

namespace IntPlatform.Program.Collected

open Library.Formats Library.Mealy Library.RoundRobin Library.Schedules
open Collector.Records Collector.ProcessPacket Collector.Outcome Collector.Buffers Collector.Loop Collector.Runs
open Exporter.RingBuffer Exporter.SendData Exporter.Conservation Exporter.Sender Threads

def SampledAt (opt : Options) (pktCnt : BitVec 64) : Prop :=
  opt.hostValid ≠ 0 ∧ pktCnt % opt.smplRate.setWidth 64 = 0

instance (opt : Options) (pktCnt : BitVec 64) : Decidable (SampledAt opt pktCnt) :=
  inferInstanceAs (Decidable (_ ∧ _))

def sampled {T : Type} (opt : Options) (records : List T) : List T :=
  (records.zipIdx.filter fun r => decide (SampledAt opt (BitVec.ofNat 64 r.2))).map Prod.fst

theorem sampled_concat {T : Type} (opt : Options) (records : List T) (r : T) :
    sampled opt (records ++ [r]) =
      sampled opt records ++ if SampledAt opt (BitVec.ofNat 64 records.length) then [r] else [] := by
  rw [sampled, List.zipIdx_append, List.filter_append, List.map_append, sampled, Nat.zero_add,
    List.zipIdx_singleton]
  congr 1
  by_cases h : SampledAt opt (BitVec.ofNat 64 records.length)
  · simp [h]
  · simp [h]

theorem sampled_of_no_host {T : Type} (opt : Options) (records : List T) (h : opt.hostValid = 0) :
    sampled opt records = [] := by
  have hnone : ∀ r : T × Nat, decide (SampledAt opt (BitVec.ofNat 64 r.2)) = false :=
    fun r => decide_eq_false fun hs => hs.1 h
  rw [sampled, List.filter_eq_nil_iff.mpr fun r _ => by rw [hnone]; exact Bool.false_ne_true]
  rfl

def lastBuffer (buffer : List Byte) (frames : List (List Byte)) : List Byte :=
  frames.foldl (fun b frame => recvfrom frame b) buffer

theorem buffersOf_concat (buffer : List Byte) (frames : List (List Byte)) (frame : List Byte) :
    buffersOf buffer (frames ++ [frame]) =
      buffersOf buffer frames ++ [recvfrom frame (lastBuffer buffer frames)] := by
  induction frames generalizing buffer with
  | nil => rfl
  | cons f frames ih => exact congrArg (recvfrom f buffer :: ·) (ih (recvfrom f buffer))

theorem recorded_congr (opt : Options) (st st' : State) (buffer : List Byte)
    (hflow : st.flowMap = st'.flowMap) (hprev : st.prevTimestamps = st'.prevTimestamps) :
    (recorded opt st buffer).1 = (recorded opt st' buffer).1 ∧
      (recorded opt st buffer).2.flowMap = (recorded opt st' buffer).2.flowMap ∧
      (recorded opt st buffer).2.prevTimestamps = (recorded opt st' buffer).2.prevTimestamps := by
  obtain ⟨flowMap, prevTimestamps, pktCnt, pktDrop⟩ := st
  dsimp only at hflow hprev
  subst hflow hprev
  exact ⟨rfl, rfl, rfl⟩

variable {size : Nat} [NeZero size] {opt : Options} {L : Type}

inductive ReportStep (tmpHdr : TelemetricHdr) (s s' : Process size opt TelemetricHdr) :
    Option (ExportEvent opt TelemetricHdr) → Prop
  | skip : s.call = .outside → ¬ SampledAt opt s.pktCnt → s'.call ≠ .outside → s'.pktCnt = s.pktCnt →
      ReportStep tmpHdr s s' none
  | offer : s.call = .outside → SampledAt opt s.pktCnt → s'.call ≠ .outside → s'.pktCnt = s.pktCnt →
      ReportStep tmpHdr s s' (some (.offered tmpHdr))
  | work : s.call ≠ .outside → s'.call ≠ .outside → s'.pktCnt = s.pktCnt → ReportStep tmpHdr s s' none
  | refuse (k : Fin opt.rawBuffer.toNat) (v : TelemetricHdr) : s.call ≠ .outside → s'.call ≠ .outside →
      s'.pktCnt = s.pktCnt → ReportStep tmpHdr s s' (some (.refused k v))
  | accept (k : Fin opt.rawBuffer.toNat) (v : TelemetricHdr) : s.call ≠ .outside → s'.call ≠ .outside →
      s'.pktCnt = s.pktCnt → ReportStep tmpHdr s s' (some (.accepted k v))
  | reject (v : TelemetricHdr) : s.call ≠ .outside → s'.call ≠ .outside → s'.pktCnt = s.pktCnt →
      ReportStep tmpHdr s s' (some (.rejected v))
  | count : s.call ≠ .outside → s'.call = .outside → s'.pktCnt = s.pktCnt + 1 → ReportStep tmpHdr s s' none

theorem reportStep_cases {tmpHdr : TelemetricHdr} {s s' : Process size opt TelemetricHdr}
    {o : Option (ExportEvent opt TelemetricHdr)}
    (h : reportStep tmpHdr s = some (s', o)) : ReportStep tmpHdr s s' o := by
  rw [reportStep] at h
  cases hcall : s.call with
  | outside =>
      rw [hcall] at h
      dsimp only at h
      split at h
      · next hhost =>
        cases h
        exact .skip hcall (fun hs => hs.1 hhost) (fun hc => by cases hc) rfl
      · next hhost =>
        split at h
        · cases h
        · split at h
          · next hcnt =>
            cases h
            exact .offer hcall ⟨hhost, hcnt⟩ (fun hc => by cases hc) rfl
          · next hcnt =>
            cases h
            exact .skip hcall (fun hs => hcnt hs.2) (fun hc => by cases hc) rfl
  | loop v i =>
      have hin : s.call ≠ .outside := by
        rw [hcall]
        exact fun hc => by cases hc
      rw [hcall] at h
      dsimp only at h
      split at h
      · cases h
        exact .work hin (fun hc => by cases hc) rfl
      · cases h
        exact .reject v hin (fun hc => by cases hc) rfl
  | push v i =>
      have hin : s.call ≠ .outside := by
        rw [hcall]
        exact fun hc => by cases hc
      rw [hcall] at h
      dsimp only at h
      split at h
      · next hk =>
        split at h
        · next w hpush =>
          cases h
          exact .accept ⟨_, hk⟩ w hin (fun hc => by cases hc) rfl
        · next w hpush =>
          cases h
          exact .refuse ⟨_, hk⟩ w hin (fun hc => by cases hc) rfl
        · cases h
          exact .work hin (fun hc => by cases hc) rfl
      · cases h
  | counting =>
      have hin : s.call ≠ .outside := by
        rw [hcall]
        exact fun hc => by cases hc
      rw [hcall] at h
      cases h
      exact .count hin rfl rfl

theorem senderStep_keeps (k : Fin opt.rawBuffer.toNat) (s : Process size opt TelemetricHdr) :
    (senderStep k s).1.call = s.call ∧ (senderStep k s).1.pktCnt = s.pktCnt := by
  rw [senderStep]
  dsimp only
  split <;> exact ⟨rfl, rfl⟩

/-- The main thread has offered what it sampled. The last record may wait for
the test, or be in sendData, or behind it and not counted yet. -/
inductive Progress (records offered : List TelemetricHdr) (t : System size opt L) : Prop
  | idle : (∀ tmpHdr, t.main ≠ .reporting tmpHdr) → t.process.call = .outside →
      t.process.pktCnt = BitVec.ofNat 64 records.length → offered = sampled opt records →
      Progress records offered t
  | untested (earlier : List TelemetricHdr) (tmpHdr : TelemetricHdr) : t.main = .reporting tmpHdr →
      t.process.call = .outside → records = earlier ++ [tmpHdr] →
      t.process.pktCnt = BitVec.ofNat 64 earlier.length → offered = sampled opt earlier →
      Progress records offered t
  | exporting (earlier : List TelemetricHdr) (tmpHdr : TelemetricHdr) : t.main = .reporting tmpHdr →
      t.process.call ≠ .outside → records = earlier ++ [tmpHdr] →
      t.process.pktCnt = BitVec.ofNat 64 earlier.length → offered = sampled opt records →
      Progress records offered t

section Progress

omit [NeZero size]

variable {records offered : List TelemetricHdr} {t u : System size opt L} {tmpHdr : TelemetricHdr}

theorem Progress.congr (h : Progress records offered t) (hmain : u.main = t.main)
    (hcall : u.process.call = t.process.call) (hcnt : u.process.pktCnt = t.process.pktCnt) :
    Progress records offered u := by
  cases h with
  | idle hm hc hn ho => exact .idle (hmain ▸ hm) (hcall ▸ hc) (hcnt ▸ hn) ho
  | untested earlier r hm hc hr hn ho =>
      exact .untested earlier r (hmain.trans hm) (hcall.trans hc) hr (hcnt.trans hn) ho
  | exporting earlier r hm hc hr hn ho =>
      exact .exporting earlier r (hmain.trans hm) (hcall ▸ hc) hr (hcnt.trans hn) ho

theorem Progress.at_idle (h : Progress records offered t) (hm : ∀ tmpHdr, t.main ≠ .reporting tmpHdr) :
    t.process.call = .outside ∧ t.process.pktCnt = BitVec.ofNat 64 records.length ∧
      offered = sampled opt records := by
  cases h with
  | idle _ hc hn ho => exact ⟨hc, hn, ho⟩
  | untested _ r hr => exact absurd hr (hm r)
  | exporting _ r hr => exact absurd hr (hm r)

theorem Progress.report (h : Progress records offered t) (hm : t.main = .reporting tmpHdr)
    {process : Process size opt TelemetricHdr} {e : Option (ExportEvent opt TelemetricHdr)}
    (hs : ReportStep tmpHdr t.process process e) :
    Progress records (offered ++ offers e.toList)
      { t with process := process, main := Main.behind tmpHdr process.call } := by
  have hstay : ∀ {call : Call TelemetricHdr}, call ≠ .outside →
      Main.behind tmpHdr call = .reporting tmpHdr := by
    intro call hcall
    cases call with
    | outside => exact absurd rfl hcall
    | loop v i | push v i | counting => rfl
  cases h with
  | idle hne => exact absurd hm (hne tmpHdr)
  | untested earlier r hr hc hrec hn ho =>
      obtain rfl : tmpHdr = r := Main.reporting.inj (hm.symm.trans hr)
      have hnew := sampled_concat opt earlier tmpHdr
      cases hs with
      | skip _ htest hcall hcnt =>
          refine .exporting earlier tmpHdr (hstay hcall) hcall hrec (hcnt.trans hn) ?_
          rw [hrec, hnew, if_neg (hn ▸ htest), ho]
          rfl
      | offer _ htest hcall hcnt =>
          refine .exporting earlier tmpHdr (hstay hcall) hcall hrec (hcnt.trans hn) ?_
          rw [hrec, hnew, if_pos (hn ▸ htest), ho]
          rfl
      | work hin | refuse _ _ hin | accept _ _ hin | reject _ hin | count hin => exact absurd hc hin
  | exporting earlier r hr hc hrec hn ho =>
      obtain rfl : tmpHdr = r := Main.reporting.inj (hm.symm.trans hr)
      have hsame := (List.append_nil offered).trans ho
      cases hs with
      | skip hout | offer hout => exact absurd hout hc
      | work _ hcall hcnt | refuse _ _ _ hcall hcnt | accept _ _ _ hcall hcnt | reject _ _ hcall hcnt =>
          exact .exporting earlier tmpHdr (hstay hcall) hcall hrec (hcnt.trans hn) hsame
      | count _ hcall hcnt =>
          refine .idle ?_ hcall ?_ hsame
          · intro r hr
            dsimp only at hr
            rw [hcall] at hr
            cases hr
          · rw [hcnt, hn, hrec, List.length_append, BitVec.ofNat_add]
            rfl

end Progress

/-- The main thread behind the frames it has received: they were decoded as one
run of the collector, and the exporter has had what is sampled of it. -/
structure Follows (buffer : List Byte) (es : List (Event opt)) (t : System size opt L) : Prop where
  processable : ∀ b ∈ buffersOf buffer (frames es), Processable maxNodes b
  received : t.buffer = lastBuffer buffer (frames es)
  flowMap : t.flowMap = ((decoder opt).after State.initial (buffersOf buffer (frames es))).flowMap
  prevTimestamps : t.prevTimestamps =
    ((decoder opt).after State.initial (buffersOf buffer (frames es))).prevTimestamps
  progress : Progress ((decoder opt).outputs State.initial (buffersOf buffer (frames es)))
    (offers (exports es)) t

section Follows

variable {buffer : List Byte} {es : List (Event opt)} {s t u : System size opt L}
  {o : Option (Event opt)}

theorem lastBuffer_length (frames : List (List Byte)) (h : buffer.length = pktBufSize) :
    (lastBuffer buffer frames).length = pktBufSize := by
  induction frames generalizing buffer with
  | nil => exact h
  | cons frame frames ih => exact ih (recvfrom_length frame buffer h)

theorem Started.follows {start : L} (h : System.Started start s) : Follows s.buffer [] s where
  processable := fun b hb => absurd hb List.not_mem_nil
  received := rfl
  flowMap := h.flowMap
  prevTimestamps := h.prevTimestamps
  progress := by
    obtain ⟨-, -, hcall, hcnt, -⟩ := h.process
    refine .idle ?_ hcall hcnt rfl
    rw [h.main]
    exact fun _ hm => by cases hm

omit [NeZero size] in
theorem Follows.silent (h : Follows buffer es t) (ho : o.bind Event.frame? = none)
    (hbuffer : u.buffer = t.buffer) (hflow : u.flowMap = t.flowMap)
    (hprev : u.prevTimestamps = t.prevTimestamps)
    (hprogress : Progress ((decoder opt).outputs State.initial (buffersOf buffer (frames es)))
      (offers (exports es) ++ offers (o.bind Event.export?).toList) u) :
    Follows buffer (es ++ o.toList) u := by
  have hframes : frames (es ++ o.toList) = frames es := by
    rw [frames_concat, ho]
    exact List.append_nil _
  refine ⟨?_, ?_, ?_, ?_, ?_⟩
  · rw [hframes]
    exact h.processable
  · rw [hframes, hbuffer, h.received]
  · rw [hframes, hflow, h.flowMap]
  · rw [hframes, hprev, h.prevTimestamps]
  · rw [hframes, exports_concat, offers_append]
    exact hprogress

omit [NeZero size] in
theorem Follows.receive (hlen : buffer.length = pktBufSize) (h : Follows buffer es t)
    (hm : t.main = .receiving) {frame : List Byte} {tmpHdr : TelemetricHdr} {st : State}
    (hp : processPacket opt t.state (recvfrom frame t.buffer) = .ok (tmpHdr, st)) :
    Follows buffer (es ++ [.received frame]) { t with
      main := .reporting tmpHdr
      buffer := recvfrom frame t.buffer
      flowMap := st.flowMap
      prevTimestamps := st.prevTimestamps } := by
  have hlast := lastBuffer_length (frames es) hlen
  rw [← h.received] at hlast
  obtain ⟨hz, hlt, hr⟩ :=
    processPacket_buffer_ok opt t.state _ (recvfrom_length frame t.buffer hlast) _ hp
  obtain ⟨hout, hflow, hprev⟩ :=
    recorded_congr opt t.state _ (recvfrom frame t.buffer) h.flowMap h.prevTimestamps
  rw [← hr] at hout hflow hprev
  have hframes : frames (es ++ [.received frame]) = frames es ++ [frame] :=
    frames_concat es (some (.received frame))
  have hbuffers := buffersOf_concat buffer (frames es) frame
  rw [← h.received] at hbuffers
  have hexports : exports (es ++ [.received frame]) = exports es :=
    (exports_concat es (some (.received frame))).trans (List.append_nil _)
  obtain ⟨hcall, hcnt, hoffers⟩ := h.progress.at_idle fun r hr => by rw [hm] at hr; cases hr
  refine ⟨?_, ?_, ?_, ?_, ?_⟩
  · rw [hframes, hbuffers]
    intro b hb
    rcases List.mem_append.mp hb with hb | hb
    · exact h.processable b hb
    · rw [List.mem_singleton.mp hb]
      exact ⟨hz, hlt⟩
  · rw [hframes, lastBuffer, List.foldl_concat, ← lastBuffer, h.received]
  · rw [hframes, hbuffers, Machine.after_concat]
    exact hflow
  · rw [hframes, hbuffers, Machine.after_concat]
    exact hprev
  · rw [hframes, hbuffers, hexports, Machine.outputs_concat]
    exact .untested _ tmpHdr rfl hcall (congrArg (_ ++ [·]) hout.symm) hcnt hoffers

theorem mainStep_follows (hlen : buffer.length = pktBufSize) (h : Follows buffer es t)
    {frame : List Byte} (hs : mainStep frame t = some (u, o)) : Follows buffer (es ++ o.toList) u := by
  obtain ⟨hm, rfl, rfl⟩ | ⟨tmpHdr, st, hm, hp, rfl, rfl⟩ | ⟨tmpHdr, process, e, hm, hr, rfl, rfl⟩ :=
    mainStep_cases hs
  · obtain ⟨hcall, hcnt, ho⟩ := h.progress.at_idle fun r hr => by rw [hm] at hr; cases hr
    refine h.silent rfl rfl rfl rfl ?_
    refine .idle ?_ hcall hcnt ((List.append_nil _).trans ho)
    intro r hr
    dsimp only at hr
    split at hr <;> cases hr
  · exact h.receive hlen hm hp
  · have hexport : (e.map Event.exported).bind Event.export? = e := by cases e <;> rfl
    refine h.silent (by cases e <;> rfl) rfl rfl rfl ?_
    rw [hexport]
    exact h.progress.report hm (reportStep_cases hr)

theorem senderMove_follows {sender : Fin opt.rawBuffer.toNat → Machine L Pop Reaction}
    {k : Fin opt.rawBuffer.toNat} {error : Option (List Char)} (h : Follows buffer es t)
    (hs : senderMove sender k error t = (u, o)) : Follows buffer (es ++ o.toList) u := by
  obtain ⟨telemetric, hpop, rfl, rfl⟩ | ⟨popped, hpop, hstep, rfl⟩ := senderMove_cases hs
  · refine h.silent ?_ rfl rfl rfl ?_
    · cases ((sender k).out (t.senders k).loc ⟨telemetric, error⟩).sent <;> rfl
    · have hnone : offers ((((sender k).out (t.senders k).loc ⟨telemetric, error⟩).sent.map
          (Event.sent k)).bind Event.export?).toList = [] := by
        cases ((sender k).out (t.senders k).loc ⟨telemetric, error⟩).sent <;> rfl
      rw [hnone, List.append_nil]
      exact h.progress.congr rfl rfl rfl
  · obtain ⟨hcall, hcnt⟩ := senderStep_keeps k t.process
    have hnone : o.bind Event.frame? = none ∧ offers (o.bind Event.export?).toList = [] := by
      cases hstep <;> exact ⟨rfl, rfl⟩
    refine h.silent hnone.1 rfl rfl rfl ?_
    rw [hnone.2, List.append_nil]
    exact h.progress.congr rfl hcall hcnt

theorem move_follows (hlen : buffer.length = pktBufSize)
    {sender : Fin opt.rawBuffer.toNat → Machine L Pop Reaction} {m : Move opt}
    (h : Follows buffer es t) (hs : move sender m t = some (u, o)) : Follows buffer (es ++ o.toList) u := by
  cases m with
  | main frame => exact mainStep_follows hlen h hs
  | sender k error => exact senderMove_follows h (Option.some.inj hs)
  | sigint =>
      cases hs
      refine h.silent rfl rfl rfl rfl ?_
      exact (List.append_nil (offers (exports es))).symm ▸ h.progress.congr rfl rfl rfl

theorem run_follows (hlen : buffer.length = pktBufSize)
    {sender : Fin opt.rawBuffer.toNat → Machine L Pop Reaction} {ms : List (Move opt)}
    (hs : run (move sender) ms s = some (es, t)) (h : Follows buffer [] s) : Follows buffer es t :=
  run_invariant (fun _ es t => Follows buffer es t) hs h
    fun _ _ _ _ _ _ hi hm => move_follows hlen hi hm

end Follows

end IntPlatform.Program.Collected
