import IntPlatform.Collector.Arguments
import IntPlatform.Collector.FlowIsolation
import IntPlatform.Exporter.Transports
import IntPlatform.Program.Collected

namespace IntPlatform.Program.Delivery

open Library.Formats Library.Traces Library.Mealy Library.Batching Library.RoundRobin Library.Schedules
open Collector Collector.Records Collector.ProcessPacket Collector.Arguments Collector.Loop Collector.Runs
open Exporter.AddReport Exporter.RingBuffer Exporter.SendData Exporter.Conservation Exporter.Sender
open Exporter.Transports Threads Collected

def Thread.hand {L : Type} (thread : Thread L) : Option TelemetricHdr := thread.popped.join

section Projections

variable {size : Nat} [NeZero size] {opt : Options} {L : Type} {s t u : System size opt L}
  {o : Option (Event opt)} {sender : Fin opt.rawBuffer.toNat → Machine L Pop Reaction}

theorem move_exporter (m : Move opt) (h : move sender m t = some (u, o)) :
    (exporter size opt TelemetricHdr).Path t.process (o.bind Event.export?).toList u.process := by
  cases m with
  | main frame =>
      obtain ⟨-, rfl, rfl⟩ | ⟨tmpHdr, st, -, -, rfl, rfl⟩ | ⟨tmpHdr, process, e, -, hr, rfl, rfl⟩ :=
        mainStep_cases h
      · exact .nil
      · exact .nil
      · have hexport : (e.map Event.exported).bind Event.export? = e := by cases e <;> rfl
        rw [hexport]
        exact Automaton.Path.single (.report tmpHdr t.process process e hr)
  | sender k error =>
      obtain ⟨telemetric, -, rfl, rfl⟩ | ⟨popped, -, hstep, rfl⟩ := senderMove_cases (Option.some.inj h)
      · cases ((sender k).out (t.senders k).loc ⟨telemetric, error⟩).sent <;> exact .nil
      · have hs : ExportStep t.process (senderStep k t.process).2 (senderStep k t.process).1 :=
          .sender k t.process
        have hpath := Automaton.Path.single (M := exporter size opt TelemetricHdr) hs
        cases hstep with
        | silent hnone _ =>
            rw [hnone] at hpath
            exact hpath
        | taken v hv =>
            rw [hv] at hpath
            exact hpath
        | empty hnone _ =>
            rw [hnone] at hpath
            exact hpath
  | sigint =>
      cases h
      exact .nil

theorem run_exporter {start : L} {ms : List (Move opt)} {es : List (Event opt)}
    (hs : System.Started start s) (h : run (move sender) ms s = some (es, t)) :
    (exporter size opt TelemetricHdr).Run (exports es) t.process :=
  ⟨s.process, hs.process, run_projects (exporter size opt TelemetricHdr) (·.process) Event.export?
    (fun m _ _ _ => move_exporter m) h⟩

/-- What a sender has done is what its machine does on the pops behind it. -/
def Worked (sender : Fin opt.rawBuffer.toNat → Machine L Pop Reaction) (start : L)
    (k : Fin opt.rawBuffer.toNat) (es : List (Event opt)) (t : System size opt L) : Prop :=
  ∃ pops : List Pop, (t.senders k).loc = (sender k).after start pops ∧
    sentBy k es = bodies ((sender k).outputs start pops) ∧
    popsOf k es = pops.map Pop.telemetric ++ (t.senders k).popped.toList

theorem bodyOf_sent (j k : Fin opt.rawBuffer.toNat) (body : Option (List Char)) :
    (body.map (Event.sent j)).bind (Event.bodyOf k) = if j = k then body else none := by
  cases body with
  | none => split <;> rfl
  | some body => rfl

theorem popOf_sent (j k : Fin opt.rawBuffer.toNat) (body : Option (List Char)) :
    (body.map (Event.sent j)).bind (Event.popOf k) = none := by
  cases body <;> rfl

omit [NeZero size] in
theorem Worked.silent {start : L} {k : Fin opt.rawBuffer.toNat} {es : List (Event opt)}
    (h : Worked sender start k es t) (hthread : u.senders k = t.senders k)
    (hbody : o.bind (Event.bodyOf k) = none) (hpop : o.bind (Event.popOf k) = none) :
    Worked sender start k (es ++ o.toList) u := by
  obtain ⟨pops, hloc, hsent, hpops⟩ := h
  refine ⟨pops, ?_, ?_, ?_⟩
  · rw [hthread, hloc]
  · rw [sentBy_concat, hbody, Option.toList_none, List.append_nil, hsent]
  · rw [popsOf_concat, hpop, Option.toList_none, List.append_nil, hthread, hpops]

theorem senderMove_worked {start : L} {k : Fin opt.rawBuffer.toNat} {es : List (Event opt)}
    (j : Fin opt.rawBuffer.toNat) (error : Option (List Char)) (h : Worked sender start k es t)
    (hm : senderMove sender j error t = (u, o)) : Worked sender start k (es ++ o.toList) u := by
  obtain ⟨telemetric, hpop, rfl, rfl⟩ | ⟨popped, hpop, hstep, rfl⟩ := senderMove_cases hm
  · by_cases hj : j = k
    · subst hj
      obtain ⟨pops, hloc, hsent, hpops⟩ := h
      refine ⟨pops ++ [⟨telemetric, error⟩], ?_, ?_, ?_⟩
      · rw [Machine.after_concat, ← hloc]
        exact congrArg Thread.loc (Function.update_self j _ t.senders)
      · rw [sentBy_concat, bodyOf_sent, if_pos rfl, hsent, Machine.outputs_concat, bodies_concat, ← hloc]
      · rw [popsOf_concat, popOf_sent, hpops, hpop, List.map_append]
        dsimp only
        rw [Function.update_self]
        rfl
    · refine h.silent (Function.update_of_ne (Ne.symm hj) _ _) ?_ (popOf_sent j k _)
      rw [bodyOf_sent, if_neg hj]
  · by_cases hj : j = k
    · subst hj
      obtain ⟨pops, hloc, hsent, hpops⟩ := h
      rw [hpop, Option.toList_none, List.append_nil] at hpops
      have hbody : o.bind (Event.bodyOf j) = none := by cases hstep <;> rfl
      have hnew : o.bind (Event.popOf j) = popped := by
        cases hstep with
        | silent _ _ => rfl
        | taken v _ => exact if_pos rfl
        | empty _ _ => exact if_pos rfl
      refine ⟨pops, ?_, ?_, ?_⟩
      · dsimp only
        rw [Function.update_self, hloc]
      · rw [sentBy_concat, hbody, hsent]
        exact List.append_nil _
      · rw [popsOf_concat, hnew, hpops]
        dsimp only
        rw [Function.update_self]
    · refine h.silent (Function.update_of_ne (Ne.symm hj) _ _) (by cases hstep <;> rfl) ?_
      cases hstep with
      | silent _ _ => rfl
      | taken v _ => exact if_neg hj
      | empty _ _ => exact if_neg hj

theorem move_worked {start : L} {k : Fin opt.rawBuffer.toNat} {es : List (Event opt)} (m : Move opt)
    (h : Worked sender start k es t) (hm : move sender m t = some (u, o)) :
    Worked sender start k (es ++ o.toList) u := by
  cases m with
  | main frame =>
      obtain ⟨-, rfl, rfl⟩ | ⟨tmpHdr, st, -, -, rfl, rfl⟩ | ⟨tmpHdr, process, e, -, hr, rfl, rfl⟩ :=
        mainStep_cases hm
      · exact h.silent rfl rfl rfl
      · exact h.silent rfl rfl rfl
      · refine h.silent rfl (by cases e <;> rfl) ?_
        cases reportStep_cases hr <;> rfl
  | sender j error => exact senderMove_worked j error h (Option.some.inj hm)
  | sigint =>
      cases hm
      exact h.silent rfl rfl rfl

theorem run_worked {start : L} (k : Fin opt.rawBuffer.toNat) {ms : List (Move opt)}
    {es : List (Event opt)} (hs : System.Started start s)
    (h : run (move sender) ms s = some (es, t)) : Worked sender start k es t := by
  refine run_invariant (fun _ es t => Worked sender start k es t) h ?_ ?_
  · refine ⟨[], ?_, rfl, ?_⟩
    · rw [hs.senders k]
      rfl
    · rw [hs.senders k]
      rfl
  · exact fun _ _ _ m _ _ hi hm => move_worked m hi hm

end Projections

section Accounts

variable {size : Nat} [NeZero size] {opt : Options} {T : Type} {es : List (ExportEvent opt T)}
  {s s' : Process size opt T} {o : Option (ExportEvent opt T)}

/-- Without a ring every call of sendData ends in a rejection. -/
theorem reportStep_no_rings (hzero : opt.rawBuffer.toNat = 0) {telemetric : T}
    (hcall : ∀ v i, s.call ≠ .push v i) (h : reportStep telemetric s = some (s', o)) :
    (pendingRecord s.call).toList ++ offers o.toList =
        (outcomes o.toList).map Prod.fst ++ (pendingRecord s'.call).toList ∧
      ∀ v i, s'.call ≠ .push v i := by
  rw [reportStep] at h
  cases hc : s.call with
  | outside =>
      rw [hc] at h
      dsimp only at h
      split at h
      · cases h
        exact ⟨rfl, fun v i he => by cases he⟩
      · split at h
        · cases h
        · split at h <;> cases h <;> exact ⟨rfl, fun v i he => by cases he⟩
  | loop v i =>
      rw [hc] at h
      dsimp only at h
      split at h
      · next hlt =>
        rw [BitVec.lt_def, hzero] at hlt
        exact absurd hlt (Nat.not_lt_zero _)
      · cases h
        exact ⟨rfl, fun v i he => by cases he⟩
  | push v i => exact absurd hc (hcall v i)
  | counting =>
      rw [hc] at h
      cases h
      exact ⟨rfl, fun v i he => by cases he⟩

/-- What was offered has its outcome or is pending, and what a ring accepted was
taken from it or is in it, with any number of rings. -/
theorem exporter_accounts (h : (exporter size opt T).Run es s) :
    offers es = (outcomes es).map Prod.fst ++ (pendingRecord s.call).toList ∧
      ∀ k, accepts k es = takes k es ++ (s.ringBuffs k).contents := by
  rcases Nat.eq_zero_or_pos opt.rawBuffer.toNat with hzero | hpos
  · refine ⟨?_, fun k => (hzero ▸ k).elim0⟩
    have hinv : offers es = (outcomes es).map Prod.fst ++ (pendingRecord s.call).toList ∧
        ∀ v i, s.call ≠ .push v i := by
      refine Automaton.Run.invariant (fun es s => offers es =
        (outcomes es).map Prod.fst ++ (pendingRecord s.call).toList ∧ ∀ v i, s.call ≠ .push v i) h ?_ ?_
      · rintro s ⟨-, -, hcall, -, -⟩
        rw [hcall]
        exact ⟨rfl, fun v i he => by cases he⟩
      · rintro es s o s' ⟨ho, hcall⟩ hs
        cases hs with
        | report telemetric _ _ _ hr =>
            obtain ⟨hone, hnext⟩ := reportStep_no_rings hzero hcall hr
            refine ⟨?_, hnext⟩
            rw [offers_append, outcomes_append, List.map_append, ho, List.append_assoc, hone,
              List.append_assoc]
        | sender k => exact (hzero ▸ k).elim0
    exact hinv.1
  · have : NeZero opt.rawBuffer.toNat := ⟨Nat.pos_iff_ne_zero.mp hpos⟩
    obtain ⟨d, hd, hm⟩ := exporter_refines.run h
    refine ⟨?_, fun k => ?_⟩
    · rw [offers_eq hd, matches_pending hm]
    · rw [accepts_eq k hd, matches_contents hm]

end Accounts

/-- The senders that the exporter starts. -/
def senders (opt : ProgramOptions) (transport : Transport) (k : Fin opt.rawBuffer.toNat) :
    Machine transport.Local Pop Reaction :=
  transport.sender ⟨opt.hostValid, opt.batch⟩ (BitVec.ofNat 32 k)

/-- The decoded record that report_to_influx has not tested yet. -/
def untested {size : Nat} {opt : Options} {L : Type} (t : System size opt L) : Option TelemetricHdr :=
  match t.main, t.process.call with
  | .reporting tmpHdr, .outside => some tmpHdr
  | _, _ => none

theorem progress_sampled {size : Nat} {opt : Options} {L : Type} {t : System size opt L}
    {records offered : List TelemetricHdr} (h : Progress records offered t) :
    ∃ tested, records = tested ++ (untested t).toList ∧ offered = sampled opt tested := by
  cases h with
  | idle hm _ _ ho =>
      refine ⟨records, ?_, ho⟩
      rw [untested]
      split
      · next tmpHdr hr _ => exact absurd hr (hm tmpHdr)
      · exact (List.append_nil records).symm
  | untested earlier tmpHdr hm hc hr _ ho =>
      refine ⟨earlier, ?_, ho⟩
      rw [Delivery.untested, hm, hc]
      exact hr
  | exporting earlier tmpHdr hm hc hr _ ho =>
      refine ⟨records, ?_, ho⟩
      rw [untested]
      split
      · next hc' => exact absurd hc' hc
      · exact (List.append_nil records).symm

section Program

variable {size : Nat} [NeZero size] {opt : ProgramOptions} {transport : Transport}
  {s t : System size opt.toOptions transport.Local} {ms : List (Move opt.toOptions)}
  {es : List (Threads.Event opt.toOptions)}

theorem sender_pops (hs : s.Started transport.start)
    (h : run (move (senders opt transport)) ms s = some (es, t)) (k : Fin opt.rawBuffer.toNat) :
    ∃ pops : List Pop, (t.senders k).loc = (senders opt transport k).after transport.start pops ∧
      sentBy k es = bodies ((senders opt transport k).outputs transport.start pops) ∧
      popsOf k es = pops.map Pop.telemetric ++ (t.senders k).popped.toList ∧
      accepts k (exports es) = records pops ++
        ((Thread.hand (t.senders k)).toList ++ (t.process.ringBuffs k).contents) ∧
      (opt.hostValid = 0 → records pops = []) := by
  obtain ⟨pops, hloc, hsent, hpops⟩ := run_worked k hs h
  have htakes : takes k (exports es) = records pops ++ (Thread.hand (t.senders k)).toList := by
    rw [takes_exports, hpops, List.filterMap_append, filterMap_toList, List.filterMap_map]
    rfl
  obtain ⟨hoffers, hrings⟩ := exporter_accounts (run_exporter hs h)
  have haccepts := hrings k
  rw [htakes, List.append_assoc] at haccepts
  refine ⟨pops, hloc, hsent, hpops, haccepts, fun hhost => ?_⟩
  have hf := run_follows hs.buffer h (Started.follows hs)
  obtain ⟨tested, -, hsampled⟩ := progress_sampled hf.progress
  rw [hsampled, sampled_of_no_host _ _ hhost] at hoffers
  have hnone := (List.append_eq_nil_iff.mp hoffers.symm).1
  rw [accepts, settledAs, List.map_eq_nil_iff.mp hnone] at haccepts
  exact (List.append_eq_nil_iff.mp haccepts.symm).1

theorem sent_batches (hs : s.Started transport.start)
    (h : run (move (senders opt transport)) ms s = some (es, t)) (k : Fin opt.rawBuffer.toNat) :
    ∃ b : Batches TelemetricHdr,
      sentBy k es = b.bodies report ∧
      (transport.buffer (t.senders k).loc).data = b.rest report ∧
      accepts k (exports es) =
        b.items ++ ((Thread.hand (t.senders k)).toList ++ (t.process.ringBuffs k).contents) := by
  obtain ⟨pops, hloc, hsent, -, haccepts, hvalid⟩ := sender_pops hs h k
  obtain ⟨b, hitems, hbodies, hbuffer⟩ :=
    sender_batches ⟨opt.hostValid, opt.batch⟩ (BitVec.ofNat 32 k) transport pops hvalid
  refine ⟨b, hsent.trans hbodies, ?_, ?_⟩
  · rw [hloc]
    exact hbuffer.data
  · rw [haccepts, hitems]

end Program

/-- No record is lost, duplicated or reordered between the frames that the
collector receives and the texts that the senders send. -/
theorem program_conserves (size : Nat) [NeZero size] (opt : ProgramOptions) (transport : Transport)
    (s t : System size opt.toOptions transport.Local) (ms : List (Move opt.toOptions))
    (es : List (Threads.Event opt.toOptions)) (hs : s.Started transport.start)
    (h : run (move (senders opt transport)) ms s = some (es, t)) :
    ∃ records,
      loopProccess opt.toOptions State.initial s.buffer (frames es) =
          .ok (records ++ (untested t).toList) ∧
      sampled opt.toOptions records =
          (outcomes (exports es)).map Prod.fst ++ (pendingRecord t.process.call).toList ∧
      t.process.pktDrop = BitVec.ofNat 64 (rejects (exports es)).length ∧
      ∀ k, ∃ b : Batches TelemetricHdr,
        sentBy k es = b.bodies report ∧
        (transport.buffer (t.senders k).loc).data = b.rest report ∧
        accepts k (exports es) =
          b.items ++ ((Thread.hand (t.senders k)).toList ++ (t.process.ringBuffs k).contents) := by
  have hf := run_follows hs.buffer h (Started.follows hs)
  obtain ⟨tested, hrecords, hsampled⟩ := progress_sampled hf.progress
  have hexp := run_exporter hs h
  refine ⟨tested, ?_, hsampled.symm.trans (exporter_accounts hexp).1, pktDrop_eq hexp,
    sent_batches hs h⟩
  exact (loopProccess_eq_ok _ _ _ _ hs.buffer _).mpr ⟨hf.processable, hrecords.symm⟩

def sampleOptions : ProgramOptions where
  hostValid := 1
  tstmp := 0
  smplRate := 1
  rawBuffer := 1
  devId := []
  host := "localhost".toList
  port := 8086
  protocol := "http".toList
  username := []
  password := []
  batch := 4
  log := 0
  logFile := []
  verbose := 0
  p4cfg := 1

def sampleRing : Fin sampleOptions.rawBuffer.toNat := ⟨0, by decide⟩

def sampleSize : Nat := 2

instance : NeZero sampleSize := ⟨by decide⟩

def sampleFrame : List Byte := (FlowIsolation.sampleReport 5000 100).frame

def sampleStart : System sampleSize sampleOptions.toOptions Transport.http.Local :=
  ⟨.testing, false, List.replicate pktBufSize 0, State.initial.flowMap, State.initial.prevTimestamps,
    ⟨fun _ => Ring.start fun _ => default, 0, .outside, 0, 0⟩, fun _ => ⟨none, Transport.http.start⟩⟩

theorem sampleStart_started : sampleStart.Started Transport.http.start where
  main := rfl
  stop := rfl
  buffer := List.length_replicate
  flowMap := rfl
  prevTimestamps := rfl
  process := ⟨fun _ => ⟨rfl, rfl, rfl, rfl⟩, rfl, rfl, rfl, rfl⟩
  senders _ := rfl

def receiveMoves : List (Move sampleOptions.toOptions) := List.replicate 2 (.main sampleFrame)

def pushMoves : List (Move sampleOptions.toOptions) := List.replicate 7 (.main [])

def passMoves : List (Move sampleOptions.toOptions) :=
  pushMoves ++ List.replicate 4 (.sender sampleRing none)

def sampleRecord : TelemetricHdr :=
  (FlowIsolation.sampleReport 5000 100).record sampleOptions.toOptions State.initial
    (List.replicate pktBufSize 0)

def sampleReceived : System sampleSize sampleOptions.toOptions Transport.http.Local :=
  let st := Outcome.stateAfter State.initial (FlowIsolation.sampleReport 5000 100).influx []
  { sampleStart with
    main := .reporting sampleRecord
    buffer := recvfrom sampleFrame sampleStart.buffer
    flowMap := st.flowMap
    prevTimestamps := st.prevTimestamps }

theorem receive_run : run (move (senders sampleOptions .http)) receiveMoves sampleStart =
    some ([.received sampleFrame], sampleReceived) := by
  have hp := processPacket_frame sampleOptions.toOptions State.initial
    (FlowIsolation.sampleReport 5000 100) sampleStart.buffer List.length_replicate
  have htest : mainStep sampleFrame sampleStart =
      some ({ sampleStart with main := .receiving }, none) := rfl
  have hreceive : mainStep sampleFrame { sampleStart with main := .receiving } =
      some (sampleReceived, some (.received sampleFrame)) := mainStep_receive rfl hp
  have hmoves : receiveMoves = [.main sampleFrame, .main sampleFrame] := rfl
  rw [hmoves, run, move, htest, Option.bind_some, run, move, hreceive]
  rfl

theorem pass_run : ∃ t, run (move (senders sampleOptions .http)) passMoves sampleReceived =
      some ([.exported (.offered sampleRecord), .exported (.accepted sampleRing sampleRecord),
        .exported (.taken sampleRing sampleRecord)], t) ∧
      Thread.hand (t.senders sampleRing) = some sampleRecord := by
  refine ⟨_, rfl, ?_⟩
  rfl

theorem program_conserves_sample :
    ∃ t es records, run (move (senders sampleOptions .http)) (receiveMoves ++ passMoves) sampleStart =
        some (es, t) ∧ Thread.hand (t.senders sampleRing) = some sampleRecord ∧
      loopProccess sampleOptions.toOptions State.initial sampleStart.buffer [sampleFrame] =
        .ok (records ++ (untested t).toList) ∧
      sampled sampleOptions.toOptions records = sampleRecord :: (pendingRecord t.process.call).toList := by
  obtain ⟨t, hpass, hhand⟩ := pass_run
  have hrun := run_append receive_run hpass
  obtain ⟨records, hloop, hsampled, -, -⟩ :=
    program_conserves sampleSize sampleOptions .http sampleStart t _ _ sampleStart_started hrun
  exact ⟨t, _, records, hrun, hhand, hloop, hsampled⟩

end IntPlatform.Program.Delivery
