import IntPlatform.Exporter.LineProtocol
import IntPlatform.Program.Delivery

namespace IntPlatform.Program.SentText

open Library.Formats Library.Mealy Library.Batching Library.RoundRobin Library.Schedules
open Collector.Records Collector.ProcessPacket Collector.Arguments Collector.Outcome Collector.Buffers
open Collector.Loop Collector.Runs
open Exporter.AddReport Exporter.RingBuffer Exporter.SendData Exporter.Sender Exporter.Transports
open Exporter.LineProtocol Threads Collected Delivery

theorem buffersOf_lengths (buffer : List Byte) (frames : List (List Byte))
    (h : buffer.length = pktBufSize) : ∀ b ∈ buffersOf buffer frames, b.length = pktBufSize := by
  induction frames generalizing buffer with
  | nil => exact fun b hb => absurd hb List.not_mem_nil
  | cons frame frames ih =>
      have hlen := recvfrom_length frame buffer h
      exact List.forall_mem_cons.mpr ⟨hlen, ih _ hlen⟩

theorem outputs_produced (opt : Options) (st : State) (buffers : List (List Byte))
    (hlen : ∀ b ∈ buffers, b.length = pktBufSize) (hp : ∀ b ∈ buffers, Processable maxNodes b) :
    ∀ r ∈ (decoder opt).outputs st buffers, Produced r := by
  intro r hr
  obtain ⟨st', b, hb, rfl⟩ := (decoder opt).mem_outputs st buffers r hr
  exact ⟨maxNodes, opt, st', b, _, hlen b hb, processPacket_processable opt st' b (hlen b hb) (hp b hb)⟩

theorem sampled_sublist {T : Type} (opt : Options) (records : List T) :
    (sampled opt records).Sublist records := by
  have h := (List.filter_sublist (p := fun r : T × Nat => decide (SampledAt opt (BitVec.ofNat 64 r.2)))
    (l := records.zipIdx)).map Prod.fst
  rwa [List.zipIdx_map_fst] at h

theorem exported_flatMap (records : List TelemetricHdr) : exported records = records.flatMap report := by
  rw [exported_eq, Library.LineProtocol.body, List.flatMap_assoc]
  exact congrArg records.flatMap (funext fun t => (report_eq t).symm)

theorem decode_reports (records : List TelemetricHdr) (h : ∀ r ∈ records, Exported r) :
    decode (records.flatMap report) = some (records.map printed) := by
  rw [← exported_flatMap]
  exact decode_exported records h

section Accepted

variable {size : Nat} [NeZero size] {opt : ProgramOptions} {transport : Transport}
  {s t : System size opt.toOptions transport.Local} {ms : List (Move opt.toOptions)}
  {es : List (Threads.Event opt.toOptions)}

theorem accepts_sublist (hs : s.Started transport.start)
    (h : run (move (senders opt transport)) ms s = some (es, t)) (k : Fin opt.rawBuffer.toNat) :
    (accepts k (exports es)).Sublist
      ((decoder opt.toOptions).outputs State.initial (buffersOf s.buffer (frames es))) := by
  have hf := run_follows hs.buffer h (Started.follows hs)
  obtain ⟨tested, hrecords, hsampled⟩ := progress_sampled hf.progress
  have hoffers := (exporter_accounts (run_exporter hs h)).1
  have haccepts : (accepts k (exports es)).Sublist ((outcomes (exports es)).map Prod.fst) :=
    List.filter_sublist.map _
  have houtcomes : ((outcomes (exports es)).map Prod.fst).Sublist (offers (exports es)) := by
    rw [hoffers]
    exact List.sublist_append_left _ _
  have htested : (sampled opt.toOptions tested).Sublist (tested ++ (untested t).toList) :=
    (sampled_sublist _ _).trans (List.sublist_append_left _ _)
  rw [hrecords]
  exact (haccepts.trans houtcomes).trans (hsampled ▸ htested)

theorem accepts_produced (hs : s.Started transport.start)
    (h : run (move (senders opt transport)) ms s = some (es, t)) (k : Fin opt.rawBuffer.toNat) :
    ∀ r ∈ accepts k (exports es), Produced r := by
  have hf := run_follows hs.buffer h (Started.follows hs)
  intro r hr
  exact outputs_produced opt.toOptions State.initial _ (buffersOf_lengths _ _ hs.buffer) hf.processable r
    ((accepts_sublist hs h k).subset hr)

theorem sent_groups (hs : s.Started transport.start)
    (h : run (move (senders opt transport)) ms s = some (es, t)) (k : Fin opt.rawBuffer.toNat) :
    ∃ (groups : List (List TelemetricHdr)) (waiting : List TelemetricHdr),
      (sentBy k es).map decode = groups.map (fun group => some (group.map printed)) ∧
      (∀ group ∈ groups, group ≠ []) ∧
      decode (transport.buffer (t.senders k).loc).data = some (waiting.map printed) ∧
      accepts k (exports es) = (groups.flatten ++ waiting) ++
        ((Thread.hand (t.senders k)).toList ++ (t.process.ringBuffs k).contents) := by
  obtain ⟨b, hsent, hrest, haccepts⟩ := sent_batches hs h k
  have hitems : ∀ r ∈ b.items, Exported r := by
    intro r hr
    apply produced_exported
    apply accepts_produced hs h k
    rw [haccepts]
    exact List.mem_append_left _ hr
  refine ⟨b.sent, b.pending, ?_, b.sent_ne_nil, ?_, haccepts⟩
  · rw [hsent, Batches.bodies, List.map_map]
    apply List.map_congr_left
    intro group hgroup
    apply decode_reports
    exact fun r hr => hitems r (List.mem_append_left _ (List.mem_flatten.mpr ⟨group, hgroup, hr⟩))
  · rw [hrest, Batches.rest, decode_reports]
    exact fun r hr => hitems r (List.mem_append_right _ hr)

end Accepted

/-- Each text that a sender sends can be read back alone. It has whole records,
and together they are what its ring accepted, in the order of the packets. -/
theorem sent_text_decodes (size : Nat) [NeZero size] (opt : ProgramOptions) (transport : Transport)
    (s t : System size opt.toOptions transport.Local) (ms : List (Move opt.toOptions))
    (es : List (Threads.Event opt.toOptions)) (hs : s.Started transport.start)
    (h : run (move (senders opt transport)) ms s = some (es, t)) (k : Fin opt.rawBuffer.toNat) :
    ∃ (groups : List (List TelemetricHdr)) (waiting records : List TelemetricHdr),
      (sentBy k es).map decode = groups.map (fun group => some (group.map printed)) ∧
      (∀ group ∈ groups, group ≠ []) ∧
      decode (transport.buffer (t.senders k).loc).data = some (waiting.map printed) ∧
      accepts k (exports es) = (groups.flatten ++ waiting) ++
        ((Thread.hand (t.senders k)).toList ++ (t.process.ringBuffs k).contents) ∧
      loopProccess opt.toOptions State.initial s.buffer (frames es) = .ok records ∧
      (accepts k (exports es)).Sublist records ∧
      ∀ r ∈ accepts k (exports es), 1 < r.nodeMeta.length → printed r = r := by
  obtain ⟨groups, waiting, hsent, hne, hrest, haccepts⟩ := sent_groups hs h k
  have hf := run_follows hs.buffer h (Started.follows hs)
  exact ⟨groups, waiting, _, hsent, hne, hrest, haccepts,
    (loopProccess_eq_ok _ _ _ _ hs.buffer _).mpr ⟨hf.processable, rfl⟩, accepts_sublist hs h k,
    fun r hr => printed_eq_self r (accepts_produced hs h k r hr)⟩

theorem store_run :
    ∃ es t, run (move (senders sampleOptions .http))
        (pushMoves ++ List.replicate 60 (.sender sampleRing none)) sampleReceived = some (es, t) ∧
      sentBy sampleRing es = [report sampleRecord] ∧
      accepts sampleRing (exports es) = [sampleRecord] := by
  refine ⟨_, _, rfl, ?_⟩
  exact ⟨rfl, rfl⟩

theorem sent_text_decodes_sample :
    ∃ es t records, run (move (senders sampleOptions .http))
        (receiveMoves ++ (pushMoves ++ List.replicate 60 (.sender sampleRing none))) sampleStart =
          some (es, t) ∧
      sentBy sampleRing es = [report sampleRecord] ∧
      decode (report sampleRecord) = some [printed sampleRecord] ∧
      loopProccess sampleOptions.toOptions State.initial sampleStart.buffer (frames es) = .ok records ∧
      sampleRecord ∈ records := by
  obtain ⟨es, t, hstore, hsent, haccepts⟩ := store_run
  have hrun := run_append receive_run hstore
  have hsent' : sentBy sampleRing ([.received sampleFrame] ++ es) = [report sampleRecord] := hsent
  have haccepts' : accepts sampleRing (exports ([.received sampleFrame] ++ es)) = [sampleRecord] :=
    haccepts
  obtain ⟨groups, waiting, records, hgroups, hne, -, hall, hloop, hsub, -⟩ :=
    sent_text_decodes sampleSize sampleOptions .http sampleStart t _ _ sampleStart_started hrun sampleRing
  rw [hsent'] at hgroups
  rw [haccepts'] at hall hsub
  have hdecode : decode (report sampleRecord) = some [printed sampleRecord] := by
    cases groups with
    | nil => nomatch hgroups
    | cons group rest =>
        rw [List.flatten_cons, List.append_assoc, List.append_assoc] at hall
        obtain ⟨hnil, -⟩ | ⟨hone, -⟩ := List.append_eq_singleton_iff.mp hall.symm
        · exact absurd hnil (hne group List.mem_cons_self)
        · rw [hone] at hgroups
          exact (List.cons.inj hgroups).1
  exact ⟨_, t, records, hrun, hsent', hdecode, hloop, hsub.subset List.mem_cons_self⟩

end IntPlatform.Program.SentText
