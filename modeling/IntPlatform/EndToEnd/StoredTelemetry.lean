import IntPlatform.EndToEnd.Telemetry
import IntPlatform.Program.Drain
import IntPlatform.Program.SentText

namespace IntPlatform.EndToEnd.StoredTelemetry

open Library.Formats Library.Batching Library.Mealy Library.RoundRobin Library.Schedules T4p4s.SinkEffect
open Collector.Records Collector.ProcessPacket Collector.Arguments Collector.Outcome Collector.Loop
open Collector.Runs Exporter.AddReport Exporter.RingBuffer Exporter.SendData Exporter.Conservation
open Exporter.Sender Exporter.Transports Exporter.LineProtocol Program.Threads Program.Collected
open Program.Delivery Program.Drain Program.SentText Telemetry

theorem telemetries_nodes (opt : Options) (passages : List Passage) :
    ∀ r ∈ telemetries opt passages, 1 < r.nodeMeta.length := by
  intro r hr
  obtain ⟨i, hi, rfl⟩ := List.mem_mapIdx.mp hr
  have hpos := List.length_pos_of_ne_nil (nodes_ne_nil passages[i])
  rw [telemetry, List.length_append, List.length_mapIdx, List.length_singleton]
  omega

theorem outputs_received (opt : Options) (buffer : List Byte) (h : buffer.length = pktBufSize)
    (passages : List Passage) (reports : List (List Byte))
    (hreports : passages.mapM Passage.emitted = some reports) :
    (decoder opt).outputs State.initial (buffersOf buffer reports) = telemetries opt passages := by
  have hloop := loopProccess_telemetries opt buffer h passages
  rw [emitted_reports] at hreports
  rw [Option.some.inj hreports] at hloop
  exact ((loopProccess_eq_ok _ _ _ _ h _).mp hloop).2.symm

section Sent

variable {size : Nat} [NeZero size] {opt : ProgramOptions} {transport : Transport}
  {s t : System size opt.toOptions transport.Local} {ms : List (Move opt.toOptions)}
  {es : List (Event opt.toOptions)} {passages : List Passage}

section Received

variable (hs : s.Started transport.start)
  (h : run (move (senders opt transport)) ms s = some (es, t))
  (hreceived : passages.mapM Passage.emitted = some (frames es)) (k : Fin opt.rawBuffer.toNat)

include hs h hreceived

theorem accepts_telemetry : (accepts k (exports es)).Sublist (telemetries opt.toOptions passages) := by
  have hsub := accepts_sublist hs h k
  rwa [outputs_received opt.toOptions s.buffer hs.buffer passages _ hreceived] at hsub

theorem decode_accepted (records : List TelemetricHdr) (hsub : records ⊆ accepts k (exports es)) :
    decode (records.flatMap report) = some records := by
  have hproduced : ∀ r ∈ records, Produced r := fun r hr => accepts_produced hs h k r (hsub hr)
  have hprinted : ∀ r ∈ records, printed r = r := fun r hr =>
    printed_eq_self r (hproduced r hr)
      (telemetries_nodes _ _ r ((accepts_telemetry hs h hreceived k).subset (hsub hr)))
  rw [decode_reports records fun r hr => produced_exported r (hproduced r hr)]
  exact congrArg some ((List.map_congr_left hprinted).trans (List.map_id' records))

theorem decode_groups (groups : List (List TelemetricHdr))
    (hsub : groups.flatten ⊆ accepts k (exports es)) :
    (groups.map (List.flatMap report)).map decode = groups.map some := by
  rw [List.map_map]
  apply List.map_congr_left
  intro group hgroup
  apply decode_accepted hs h hreceived k
  exact fun r hr => hsub (List.mem_flatten.mpr ⟨group, hgroup, hr⟩)

theorem sent_telemetry :
    ∃ (groups : List (List TelemetricHdr)) (waiting : List TelemetricHdr),
      (sentBy k es).map decode = groups.map some ∧
      decode (transport.buffer (t.senders k).loc).data = some waiting ∧
      accepts k (exports es) = (groups.flatten ++ waiting) ++
        ((Thread.hand (t.senders k)).toList ++ (t.process.ringBuffs k).contents) ∧
      (accepts k (exports es)).Sublist (telemetries opt.toOptions passages) := by
  obtain ⟨b, hsent, hrest, haccepts⟩ := sent_batches hs h k
  have hitems : b.items ⊆ accepts k (exports es) := by
    rw [haccepts]
    exact List.subset_append_left _ _
  refine ⟨b.sent, b.pending, ?_, ?_, haccepts, accepts_telemetry hs h hreceived k⟩
  · rw [hsent]
    exact decode_groups hs h hreceived k _ fun r hr => hitems (List.mem_append_left _ hr)
  · rw [hrest]
    exact decode_accepted hs h hreceived k _ fun r hr => hitems (List.mem_append_right _ hr)

end Received

theorem told_telemetry (hs : s.Started transport.start)
    (h : run (move (senders opt transport)) ms s = some (es, t))
    (hreceived : passages.mapM Passage.emitted = some (frames es)) :
    ∃ told, telemetries opt.toOptions passages = told ++ (untested t).toList ∧
      sampled opt.toOptions told =
        (outcomes (exports es)).map Prod.fst ++ (pendingRecord t.process.call).toList := by
  have hf := run_follows hs.buffer h (Started.follows hs)
  obtain ⟨told, htold, hsampled⟩ := progress_sampled hf.progress
  rw [outputs_received opt.toOptions s.buffer hs.buffer passages _ hreceived] at htold
  exact ⟨told, htold, hsampled.symm.trans (exporter_accounts (run_exporter hs h)).1⟩

end Sent

/-- The texts that the senders send can be read back to the telemetry of the
packets that crossed the network: whole records, each once and in order, as far
as they were sampled and found room in a ring. -/
theorem network_stored (size : Nat) [NeZero size] (opt : ProgramOptions) (transport : Transport)
    (s t : System size opt.toOptions transport.Local) (ms : List (Move opt.toOptions))
    (es : List (Event opt.toOptions)) (hs : s.Started transport.start)
    (h : run (move (senders opt transport)) ms s = some (es, t)) (passages : List Passage)
    (hreceived : passages.mapM Passage.emitted = some (frames es)) :
    (∃ told, telemetries opt.toOptions passages = told ++ (untested t).toList ∧
      sampled opt.toOptions told =
        (outcomes (exports es)).map Prod.fst ++ (pendingRecord t.process.call).toList) ∧
      ∀ k, ∃ (groups : List (List TelemetricHdr)) (waiting : List TelemetricHdr),
        (sentBy k es).map decode = groups.map some ∧
        decode (transport.buffer (t.senders k).loc).data = some waiting ∧
        accepts k (exports es) = (groups.flatten ++ waiting) ++
          ((Thread.hand (t.senders k)).toList ++ (t.process.ringBuffs k).contents) ∧
        (accepts k (exports es)).Sublist (telemetries opt.toOptions passages) :=
  ⟨told_telemetry hs h hreceived, sent_telemetry hs h hreceived⟩

def stored : Passage := samplePassages.getLast (List.cons_ne_nil _ _)

def storedRecord : TelemetricHdr :=
  stored.report.record sampleOptions.toOptions State.initial sampleStart.buffer

def storedStart (transport : Transport) : System sampleSize sampleOptions.toOptions transport.Local :=
  ⟨.testing, false, sampleStart.buffer, State.initial.flowMap, State.initial.prevTimestamps,
    sampleStart.process, fun _ => ⟨none, transport.start⟩⟩

theorem storedStart_started (transport : Transport) :
    (storedStart transport).Started transport.start where
  main := rfl
  stop := rfl
  buffer := sampleStart_started.buffer
  flowMap := rfl
  prevTimestamps := rfl
  process := sampleStart_started.process
  senders _ := rfl

def storedReceived (transport : Transport) : System sampleSize sampleOptions.toOptions transport.Local :=
  let st := stateAfter State.initial stored.report.influx stored.report.nodes
  { storedStart transport with
    main := .reporting storedRecord
    buffer := recvfrom stored.report.frame sampleStart.buffer
    flowMap := st.flowMap
    prevTimestamps := st.prevTimestamps }

def storedMoves : List (Move sampleOptions.toOptions) := List.replicate 2 (.main stored.report.frame)

theorem stored_received (transport : Transport) :
    run (move (senders sampleOptions transport)) storedMoves (storedStart transport) =
      some ([.received stored.report.frame], storedReceived transport) := by
  have hp := processPacket_frame sampleOptions.toOptions State.initial stored.report sampleStart.buffer
    List.length_replicate
  have htest : mainStep stored.report.frame (storedStart transport) =
      some ({ storedStart transport with main := .receiving }, none) := rfl
  have hreceive : mainStep stored.report.frame { storedStart transport with main := .receiving } =
      some (storedReceived transport, some (.received stored.report.frame)) := mainStep_receive rfl hp
  rw [storedMoves, List.replicate_succ, List.replicate_one, run, move, htest, Option.bind_some, run, move,
    hreceive]
  rfl

theorem stored_pass (transport : Transport) :
    ∃ t, run (move (senders sampleOptions transport)) passMoves (storedReceived transport) =
        some ([.exported (.offered storedRecord), .exported (.accepted sampleRing storedRecord),
          .exported (.taken sampleRing storedRecord)], t) ∧
      t.senders sampleRing = ⟨some (some storedRecord), transport.start⟩ ∧
      (t.process.ringBuffs sampleRing).contents = [] := by
  cases transport <;>
  · refine ⟨_, rfl, ?_⟩
    exact ⟨rfl, rfl⟩

def storedEvents : List (Event sampleOptions.toOptions) :=
  [.received stored.report.frame, .exported (.offered storedRecord),
    .exported (.accepted sampleRing storedRecord), .exported (.taken sampleRing storedRecord),
    .sent sampleRing (report storedRecord)]

def sentMoves : List (Move sampleOptions.toOptions) :=
  storedMoves ++ (passMoves ++ [.sender sampleRing none])

theorem stored_sent (transport : Transport) :
    ∃ t, run (move (senders sampleOptions transport)) sentMoves (storedStart transport) =
        some (storedEvents, t) ∧
      (transport.buffer (t.senders sampleRing).loc).data = [] ∧
      Thread.hand (t.senders sampleRing) = none ∧ (t.process.ringBuffs sampleRing).contents = [] := by
  obtain ⟨t, hpass, hsender, hcontents⟩ := stored_pass transport
  have hlines : storedRecord.nodeMeta.length = 3 := rfl
  have hit : (Buffer.clear.append storedRecord).it = Program.Delivery.sampleOptions.batch := by
    rw [append_it, hlines]
    rfl
  obtain ⟨hnext, hout⟩ := transport.sender_full
    ⟨Program.Delivery.sampleOptions.hostValid, Program.Delivery.sampleOptions.batch⟩
    (BitVec.ofNat 32 sampleRing) storedRecord (by decide) hit
  have hmove : run (move (senders sampleOptions transport)) [.sender sampleRing none] t =
      some ([.sent sampleRing (report storedRecord)],
        { t with senders := Function.update t.senders sampleRing ⟨none, transport.start⟩ }) := by
    rw [run, move, senderMove, hsender]
    dsimp only [senders]
    rw [hnext, hout]
    rfl
  refine ⟨_, run_append (stored_received transport) (run_append hpass hmove), ?_, ?_, hcontents⟩
  · dsimp only
    rw [Function.update_self]
    cases transport <;> rfl
  · dsimp only [Thread.hand]
    rw [Function.update_self]
    rfl

theorem network_stored_sample :
    ∃ t, run (move (senders sampleOptions .http)) sentMoves (storedStart .http) =
        some (storedEvents, t) ∧
      sentBy sampleRing storedEvents = [report storedRecord] ∧
      decode (report storedRecord) = some (telemetries sampleOptions.toOptions [stored]) := by
  obtain ⟨t, hrun, hdata, hhand, hcontents⟩ := stored_sent .http
  obtain ⟨-, hrings⟩ := network_stored sampleSize sampleOptions .http (storedStart .http) t _ _
    (storedStart_started .http) hrun [stored] (emitted_reports [stored])
  obtain ⟨groups, waiting, hgroups, hwaiting, hall, hsub⟩ := hrings sampleRing
  have hsent : sentBy sampleRing storedEvents = [report storedRecord] := rfl
  have haccepts : accepts sampleRing (exports storedEvents) = [storedRecord] := rfl
  rw [hdata] at hwaiting
  have hnone : waiting = [] := (Option.some.inj hwaiting).symm
  rw [hsent] at hgroups
  rw [haccepts, hnone, hhand, hcontents] at hall
  rw [haccepts] at hsub
  have hone : telemetries sampleOptions.toOptions [stored] = [storedRecord] :=
    (hsub.eq_of_length rfl).symm
  obtain ⟨group, rfl⟩ : ∃ group, groups = [group] :=
    List.length_eq_one_iff.mp (by rw [← List.length_map (f := some), ← hgroups]; rfl)
  have hgroup : group = [storedRecord] := by
    rw [hall]
    simp
  refine ⟨t, hrun, hsent, ?_⟩
  rw [hone, ← hgroup]
  exact (List.cons.inj hgroups).1

section Idle

variable {size : Nat} [NeZero size] {opt : Options} {L : Type} {s t : System size opt L}
  {sender : Fin opt.rawBuffer.toNat → Machine L Pop Reaction} {ms : List (Move opt)}
  {es : List (Event opt)}

theorem run_idle (h : run (move sender) ms s = some (es, t)) (hidle : ∀ tmpHdr, s.main ≠ .reporting tmpHdr)
    (hframes : frames es = []) : (∀ tmpHdr, t.main ≠ .reporting tmpHdr) ∧ outcomes (exports es) = [] := by
  revert hframes
  refine run_invariant (fun _ es t => frames es = [] →
    (∀ tmpHdr, t.main ≠ .reporting tmpHdr) ∧ outcomes (exports es) = []) h ?_ ?_
  · exact fun _ => ⟨hidle, rfl⟩
  · intro ms es t m u o hi hm hframes
    rw [frames_concat, List.append_eq_nil_iff] at hframes
    obtain ⟨hmain, hnone⟩ := hi hframes.1
    rw [exports_concat, outcomes_append, hnone]
    cases m with
    | main frame =>
        obtain ⟨-, rfl, rfl⟩ | ⟨tmpHdr, st, -, -, -, rfl⟩ | ⟨tmpHdr, process, e, hr, -, -, -⟩ :=
          mainStep_cases hm
        · refine ⟨fun tmpHdr hr => ?_, rfl⟩
          dsimp only at hr
          split at hr <;> cases hr
        · cases hframes.2
        · exact absurd hr (hmain tmpHdr)
    | sender k error =>
        obtain ⟨telemetric, -, rfl, rfl⟩ | ⟨popped, -, hstep, rfl⟩ := senderMove_cases (Option.some.inj hm)
        · refine ⟨hmain, ?_⟩
          cases ((sender k).out (t.senders k).loc ⟨telemetric, error⟩).sent <;> rfl
        · refine ⟨hmain, ?_⟩
          cases hstep <;> rfl
    | sigint =>
        cases hm
        exact ⟨hmain, rfl⟩

end Idle

/-- When http_senders have run for some time behind the last packet, the texts
that they have sent are the telemetry of every sampled packet, each once, but
for those that were counted as dropped. -/
theorem network_delivered (size : Nat) [NeZero size] (opt : ProgramOptions)
    (s u t : System size opt.toOptions Transport.http.Local) (before after : List (Move opt.toOptions))
    (es₁ es₂ : List (Event opt.toOptions)) (hs : s.Started Transport.http.start)
    (h₁ : run (move (senders opt .http)) before s = some (es₁, u))
    (h₂ : run (move (senders opt .http)) after u = some (es₂, t)) (passages : List Passage)
    (hreceived : passages.mapM Passage.emitted = some (frames es₁))
    (hidle : ∀ tmpHdr, u.main ≠ .reporting tmpHdr) (hquiet : frames es₂ = [])
    (hmoves : ∀ k, 5 * ((u.process.ringBuffs k).contents.length + 11) ≤ after.countP (Move.isSender k)) :
    ∃ stored : Fin opt.rawBuffer.toNat → List (List TelemetricHdr),
      (∀ k, (sentBy k (es₁ ++ es₂)).map decode = (stored k).map some) ∧
      ((List.finRange opt.rawBuffer.toNat).flatMap (fun k => (stored k).flatten) ++
        rejects (exports es₁)).Perm (sampled opt.toOptions (telemetries opt.toOptions passages)) ∧
      t.process.pktDrop = BitVec.ofNat 64 (rejects (exports es₁)).length := by
  have hrun := run_append h₁ h₂
  obtain ⟨hmain, hnone⟩ := run_idle h₂ hidle hquiet
  have hframes : frames (es₁ ++ es₂) = frames es₁ := by
    rw [frames, List.filterMap_append, ← frames, ← frames, hquiet, List.append_nil]
  have hexports : exports (es₁ ++ es₂) = exports es₁ ++ exports es₂ := List.filterMap_append
  have hsettled (o : Option (Fin opt.rawBuffer.toNat)) :
      settledAs o (exports (es₁ ++ es₂)) = settledAs o (exports es₁) := by
    have hlater : settledAs o (exports es₂) = [] := by rw [settledAs, hnone]; rfl
    rw [hexports, settledAs_append, hlater, List.append_nil]
  rw [← hframes] at hreceived
  -- what each sender has sent
  have hsent (k : Fin opt.rawBuffer.toNat) : ∃ groups : List (List TelemetricHdr),
      (sentBy k (es₁ ++ es₂)).map decode = groups.map some ∧ groups.flatten = accepts k (exports es₁) := by
    have hlater : accepts k (exports es₂) = [] := by rw [accepts, settledAs, hnone]; rfl
    obtain ⟨hcontents, hhand, hdata⟩ := sender_drained k hs h₁ h₂ hlater (hmoves k)
    obtain ⟨groups, waiting, hgroups, hwaiting, haccepts, -⟩ := sent_telemetry hs hrun hreceived k
    have hempty : decode [] = some [] := rfl
    rw [hdata, hempty] at hwaiting
    rw [← Option.some.inj hwaiting, hcontents, hhand, accepts, hsettled] at haccepts
    refine ⟨groups, hgroups, ?_⟩
    rw [accepts, haccepts, Option.toList_none, List.append_nil, List.append_nil, List.append_nil]
  obtain ⟨stored, hstored⟩ := Classical.skolem.mp hsent
  -- nothing is under way any more
  obtain ⟨told, htold, hsampled⟩ := told_telemetry hs hrun hreceived
  obtain ⟨hcall, -, -⟩ := (run_follows hs.buffer hrun (Started.follows hs)).progress.at_idle hmain
  have huntested : untested t = none := by
    rw [untested]
    split
    · next tmpHdr hr _ => exact absurd hr (hmain tmpHdr)
    · rfl
  rw [huntested, Option.toList_none, List.append_nil] at htold
  rw [← htold, hcall] at hsampled
  have houtcomes : (outcomes (exports es₁)).map Prod.fst =
      sampled opt.toOptions (telemetries opt.toOptions passages) := by
    rw [hsampled, hexports, outcomes_append, hnone, List.append_nil]
    exact (List.append_nil _).symm
  have hdrop := pktDrop_eq (run_exporter hs hrun)
  rw [rejects, hsettled] at hdrop
  refine ⟨stored, fun k => (hstored k).1, ?_, hdrop⟩
  have hperm := settled_perm (exports es₁)
  rw [houtcomes] at hperm
  simpa only [(hstored _).2] using hperm

theorem network_delivered_sample :
    ∃ t es, ∃ groups : List (List TelemetricHdr), run (move (senders sampleOptions .http))
        ((storedMoves ++ pushMoves) ++ List.replicate 60 (.sender sampleRing none)) (storedStart .http) =
          some (es, t) ∧
      (sentBy sampleRing es).map decode = groups.map some ∧
      groups.flatten = telemetries sampleOptions.toOptions [stored] := by
  have hpush : ∃ u, run (move (senders sampleOptions .http)) pushMoves (storedReceived .http) =
        some ([.exported (.offered storedRecord), .exported (.accepted sampleRing storedRecord)], u) ∧
      (u.process.ringBuffs sampleRing).contents.length = 1 ∧ u.main = .testing := by
    refine ⟨_, rfl, ?_⟩
    exact ⟨rfl, rfl⟩
  obtain ⟨u, hpush, hlen, hmain⟩ := hpush
  have hbefore := run_append (stored_received .http) hpush
  obtain ⟨es₂, t, hafter, hquiet, -⟩ := senders_run (senders sampleOptions .http) sampleRing 60 u
  have hcount : (List.replicate 60 (Move.sender sampleRing none)).countP (Move.isSender sampleRing) =
      60 := rfl
  have hring : List.finRange Program.Delivery.sampleOptions.rawBuffer.toNat = [sampleRing] := rfl
  have honly (k : Fin Program.Delivery.sampleOptions.rawBuffer.toNat) : k = sampleRing :=
    List.mem_singleton.mp (hring ▸ List.mem_finRange k)
  obtain ⟨sent, hsent, hperm, -⟩ := network_delivered sampleSize sampleOptions (storedStart .http) u t _ _ _ _
    (storedStart_started .http) hbefore hafter [stored] (emitted_reports [stored])
    (by rw [hmain]; exact fun _ hr => by cases hr) hquiet
    (by intro k; rw [honly k, hlen, hcount])
  refine ⟨t, _, sent sampleRing, run_append hbefore hafter, hsent sampleRing, ?_⟩
  rw [hring, List.flatMap_singleton] at hperm
  have hnone : (sent sampleRing).flatten ++ [] = telemetries sampleOptions.toOptions [stored] :=
    List.perm_singleton.mp hperm
  rwa [List.append_nil] at hnone

end IntPlatform.EndToEnd.StoredTelemetry
