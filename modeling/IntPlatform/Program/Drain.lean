import IntPlatform.Program.Delivery

namespace IntPlatform.Program.Drain

open Library.Formats Library.Mealy Library.Batching Library.RoundRobin Library.Schedules
open Collector.Records Collector.Arguments
open Exporter.AddReport Exporter.RingBuffer Exporter.SendData Exporter.Conservation Exporter.Sender
open Exporter.HttpSender Exporter.Transports Threads Delivery

def Move.isSender {opt : Options} (k : Fin opt.rawBuffer.toNat) : Move opt → Bool
  | .sender j _ => j = k
  | _ => false

def Event.isPop {opt : Options} (k : Fin opt.rawBuffer.toNat) (e : Threads.Event opt) : Bool :=
  (Event.popOf k e).isSome

theorem countP_isPop {opt : Options} (k : Fin opt.rawBuffer.toNat) (es : List (Threads.Event opt)) :
    es.countP (Event.isPop k) = (popsOf k es).length :=
  List.length_filterMap_eq_countP.symm

def consumerDone {size : Nat} {T : Type} : Consumer size T → Nat
  | .idle => 1
  | .loadedTail _ => 2
  | .reading _ => 3
  | .storing _ _ => 4

theorem consumerDone_le {size : Nat} {T : Type} (c : Consumer size T) :
    1 ≤ consumerDone c ∧ consumerDone c ≤ 4 := by
  cases c <;> simp [consumerDone]

section Polling

variable {size : Nat} [NeZero size] {opt : Options} {L : Type} {s t u : System size opt L}
  {o : Option (Threads.Event opt)} {sender : Fin opt.rawBuffer.toNat → Machine L Pop Reaction}
  {ms : List (Move opt)} {es : List (Threads.Event opt)}

theorem consumerStep_done {T : Type} (r : Ring size T) (h : (consumerStep r).2 = none) :
    consumerDone (consumerStep r).1.consumer = consumerDone r.consumer + 1 := by
  rw [consumerStep] at h ⊢
  cases hc : r.consumer with
  | idle | reading tail => rfl
  | loadedTail tail =>
      rw [hc] at h
      dsimp only at h ⊢
      split
      · next he =>
        rw [if_pos he] at h
        cases h
      · rfl
  | storing tail v =>
      rw [hc] at h
      cases h

theorem producerStep_consumer {T : Type} (value : T) (r : Ring size T) :
    (producerStep value r).1.consumer = r.consumer := by
  rw [producerStep]
  cases r.producer with
  | loadedHead v head nextHead => dsimp only; split <;> rfl
  | idle | writing v head nextHead | storing v head nextHead => rfl

theorem reportStep_consumer {T : Type} {telemetric : T} {p p' : Process size opt T}
    {e : Option (ExportEvent opt T)} (h : reportStep telemetric p = some (p', e))
    (k : Fin opt.rawBuffer.toNat) : (p'.ringBuffs k).consumer = (p.ringBuffs k).consumer := by
  rw [reportStep] at h
  cases hc : p.call with
  | outside =>
      rw [hc] at h
      dsimp only at h
      split at h
      · cases h
        rfl
      · split at h
        · cases h
        · split at h <;> cases h <;> rfl
  | loop v i =>
      rw [hc] at h
      dsimp only at h
      split at h <;> cases h <;> rfl
  | push v i =>
      have hupdate (j : Fin opt.rawBuffer.toNat) : (Function.update p.ringBuffs j
          (producerStep v (p.ringBuffs j)).1 k).consumer = (p.ringBuffs k).consumer := by
        by_cases hj : k = j
        · rw [hj, Function.update_self, producerStep_consumer]
        · rw [Function.update_of_ne hj]
      rw [hc] at h
      dsimp only at h
      split at h
      · split at h <;> cases h <;> exact hupdate _
      · cases h
  | counting =>
      rw [hc] at h
      cases h
      rfl

def polled (k : Fin opt.rawBuffer.toNat) (s : System size opt L) : Nat :=
  match (s.senders k).popped with
  | some _ => 0
  | none => consumerDone (s.process.ringBuffs k).consumer

omit [NeZero size] in
theorem polled_congr (k : Fin opt.rawBuffer.toNat) (hsenders : u.senders k = t.senders k)
    (hring : (u.process.ringBuffs k).consumer = (t.process.ringBuffs k).consumer) :
    polled k u = polled k t := by
  rw [polled, polled, hsenders, hring]

omit [NeZero size] in
theorem polled_le (k : Fin opt.rawBuffer.toNat) (s : System size opt L) : polled k s ≤ 4 := by
  rw [polled]
  split
  · exact Nat.zero_le 4
  · exact (consumerDone_le _).2

theorem move_polled (k : Fin opt.rawBuffer.toNat) {m : Move opt} (h : move sender m t = some (u, o)) :
    [m].countP (Move.isSender k) + polled k t ≤ polled k u + 5 * o.toList.countP (Event.isPop k) := by
  have hsame (hzero : [m].countP (Move.isSender k) = 0) (hsenders : u.senders k = t.senders k)
      (hring : (u.process.ringBuffs k).consumer = (t.process.ringBuffs k).consumer) :
      [m].countP (Move.isSender k) + polled k t ≤
        polled k u + 5 * o.toList.countP (Event.isPop k) := by
    rw [hzero, polled_congr k hsenders hring]
    omega
  cases m with
  | main frame =>
      obtain ⟨-, rfl, rfl⟩ | ⟨tmpHdr, st, -, -, rfl, rfl⟩ | ⟨tmpHdr, process, e, -, hr, rfl, rfl⟩ :=
        mainStep_cases h
      · exact hsame rfl rfl rfl
      · exact hsame rfl rfl rfl
      · exact hsame rfl rfl (reportStep_consumer hr k)
  | sender j error =>
      obtain ⟨telemetric, hpop, rfl, rfl⟩ | ⟨popped, hpop, hstep, rfl⟩ :=
        senderMove_cases (Option.some.inj h)
      · by_cases hj : j = k
        · subst hj
          have hone : ([.sender j error] : List (Move opt)).countP (Move.isSender j) = 1 := by
            simp [Move.isSender]
          have hpos := (consumerDone_le (t.process.ringBuffs j).consumer).1
          rw [hone, polled, polled, hpop]
          dsimp only
          rw [Function.update_self]
          dsimp only
          omega
        · refine hsame ?_ (Function.update_of_ne (Ne.symm hj) _ _) rfl
          simp [Move.isSender, hj]
      · by_cases hj : j = k
        · subst hj
          have hone : ([.sender j error] : List (Move opt)).countP (Move.isSender j) = 1 := by
            simp [Move.isSender]
          have hle := (consumerDone_le (t.process.ringBuffs j).consumer).2
          rw [hone, polled, polled, hpop]
          dsimp only
          rw [Function.update_self]
          cases hstep with
          | silent _ hnone =>
              have hdone := consumerStep_done _ hnone
              dsimp only
              rw [senderStep_rings, Function.update_self]
              omega
          | taken v _ | empty _ _ =>
              simp only [Option.toList_some, List.countP_singleton, Event.isPop, Event.popOf, ↓reduceIte,
                Option.isSome_some]
              omega
        · refine hsame ?_ (Function.update_of_ne (Ne.symm hj) _ _) ?_
          · simp [Move.isSender, hj]
          · dsimp only
            rw [senderStep_rings, Function.update_of_ne (Ne.symm hj)]
  | sigint =>
      cases h
      exact hsame rfl rfl rfl

theorem run_polled (k : Fin opt.rawBuffer.toNat) (h : run (move sender) ms s = some (es, t)) :
    ms.countP (Move.isSender k) ≤ 4 + 5 * (popsOf k es).length := by
  have hpaid := (run_paid (fun _ => True) (Move.isSender k) (Event.isPop k) 5 (fun _ => 0) (polled k)
    (fun m s t o _ hm => ⟨trivial, by have hstep := move_polled k hm; omega⟩) h trivial).2
  have hle := polled_le k t
  rw [countP_isPop] at hpaid
  omega

end Polling

section Quiet

variable {size : Nat} [NeZero size] {opt : Options} [NeZero opt.rawBuffer.toNat] {L : Type}
  {s t u : System size opt L} {o : Option (Threads.Event opt)}
  {sender : Fin opt.rawBuffer.toNat → Machine L Pop Reaction} {ms : List (Move opt)}
  {es : List (Threads.Event opt)} {d : Distributor opt.rawBuffer.toNat TelemetricHdr}

theorem move_queues {m : Move opt} (hm : Matches t.process d) (h : move sender m t = some (u, o)) :
    ∃ d' : Distributor opt.rawBuffer.toNat TelemetricHdr, Matches u.process d' ∧
      ∀ k, d.queues k ++ accepts k (exports o.toList) = takes k (exports o.toList) ++ d'.queues k := by
  have hpath := move_exporter m h
  have hexports : exports o.toList = (o.bind Event.export?).toList := exports_concat [] o
  rw [← hexports] at hpath
  obtain ⟨d', hd, hm'⟩ := exporter_refines.path hm hpath
  exact ⟨d', hm', fun k => accepts_path k hd⟩

theorem foundEmpty_queue {m : Move opt} {k : Fin opt.rawBuffer.toNat} (hm : Matches t.process d)
    (h : move sender m t = some (u, some (.foundEmpty k))) : d.queues k = [] := by
  cases m with
  | main frame =>
      obtain ⟨-, -, ho⟩ | ⟨tmpHdr, st, -, -, -, ho⟩ | ⟨tmpHdr, process, e, -, -, -, ho⟩ := mainStep_cases h
      · cases ho
      · cases ho
      · cases e <;> cases ho
  | sender j error =>
      obtain ⟨telemetric, -, -, ho⟩ | ⟨popped, -, hstep, -⟩ := senderMove_cases (Option.some.inj h)
      · cases hs : ((sender j).out (t.senders j).loc ⟨telemetric, error⟩).sent <;> rw [hs] at ho <;> cases ho
      · cases hstep with
        | empty _ hempty =>
            obtain ⟨ring, ⟨hs, -⟩ | ⟨-, hq, -⟩ | ⟨v, q, -, hs, -⟩⟩ :=
              consumerStep_cases (t.process.ringBuffs k) (d.queues k) (hm.rings k)
            · rw [hs] at hempty
              cases hempty
            · exact hq
            · rw [hs] at hempty
              cases hempty
  | sigint => cases h

omit [NeZero size] [NeZero opt.rawBuffer.toNat] in
theorem popOf_eq_none {k : Fin opt.rawBuffer.toNat} {e : Threads.Event opt}
    (h : Event.popOf k e = some none) : e = .foundEmpty k := by
  cases e with
  | exported e =>
      cases e with
      | taken j v =>
          rw [Event.popOf] at h
          split at h <;> cases h
      | offered v | refused j v | accepted j v | rejected v => cases h
  | foundEmpty j =>
      rw [Event.popOf] at h
      split at h
      · next hj => rw [hj]
      · cases h
  | received frame | sent j body | printed total drop => cases h

theorem quiet_pops (k : Fin opt.rawBuffer.toNat) (hm : Matches s.process d)
    (h : run (move sender) ms s = some (es, t)) (hquiet : accepts k (exports es) = []) :
    ∃ (d' : Distributor opt.rawBuffer.toNat TelemetricHdr) (vs : List TelemetricHdr) (j : Nat),
      Matches t.process d' ∧ popsOf k es = vs.map some ++ List.replicate j none ∧
      d.queues k = vs ++ d'.queues k ∧ (0 < j → d'.queues k = []) := by
  revert hquiet
  refine run_invariant (fun _ es t => accepts k (exports es) = [] →
    ∃ (d' : Distributor opt.rawBuffer.toNat TelemetricHdr) (vs : List TelemetricHdr) (j : Nat),
      Matches t.process d' ∧ popsOf k es = vs.map some ++ List.replicate j none ∧
      d.queues k = vs ++ d'.queues k ∧ (0 < j → d'.queues k = [])) h ?_ ?_
  · exact fun _ => ⟨d, [], 0, hm, rfl, rfl, fun hj => absurd hj (Nat.lt_irrefl 0)⟩
  · intro ms es t m u o hi hs hquiet
    have hexports : exports (es ++ o.toList) = exports es ++ exports o.toList := List.filterMap_append
    rw [hexports, accepts, settledAs_append, List.append_eq_nil_iff] at hquiet
    obtain ⟨d₁, vs, j, hm₁, hpops, hqueue, hnil⟩ := hi hquiet.1
    obtain ⟨d₂, hm₂, hstep⟩ := move_queues hm₁ hs
    have hk := hstep k
    rw [accepts, hquiet.2, List.append_nil, takes_exports] at hk
    have hone : popsOf k o.toList = (o.bind (Event.popOf k)).toList := popsOf_concat [] o k
    rw [hone] at hk
    rw [popsOf_concat, hpops]
    cases hpop : o.bind (Event.popOf k) with
    | none =>
        rw [hpop] at hk
        refine ⟨d₂, vs, j, hm₂, List.append_nil _, ?_, ?_⟩
        · rw [hqueue, hk]
          rfl
        · intro hj
          exact hk.symm.trans (hnil hj)
    | some popped =>
        rw [hpop] at hk
        cases popped with
        | none =>
            obtain ⟨e, rfl, he⟩ := Option.bind_eq_some_iff.mp hpop
            obtain rfl := popOf_eq_none he
            have hempty := foundEmpty_queue hm₁ hs
            refine ⟨d₂, vs, j + 1, hm₂, ?_, ?_, fun _ => hk.symm.trans hempty⟩
            · rw [List.append_assoc, List.replicate_succ']
              rfl
            · rw [hqueue, hk]
              rfl
        | some v =>
            have hzero : j = 0 := by
              by_contra hj
              rw [hnil (Nat.pos_of_ne_zero hj)] at hk
              cases hk
            subst hzero
            refine ⟨d₂, vs ++ [v], 0, hm₂, ?_, ?_, fun hj => absurd hj (Nat.lt_irrefl 0)⟩
            · simp
            · rw [hqueue, hk, List.append_assoc]
              rfl

end Quiet

section Flush

/-- The counter of http_sender, and what it means for the buffer. -/
structure Flushed (pops : List Pop) (s : Waiting) : Prop where
  flush : emptyPops pops < 10 → s.flush.toNat = emptyPops pops
  data : 10 ≤ emptyPops pops → s.buffer.data = []

theorem Flushed.next {opt : SenderOptions} (hhost : opt.hostValid ≠ 0) {pops : List Pop} {s : Waiting}
    (h : Flushed pops s) (p : Pop) : Flushed (pops ++ [p]) (httpIteration opt s p).1 := by
  cases hp : p.telemetric with
  | none =>
      have hsucc (hlt : emptyPops pops < 10) : (s.flush + 1).toNat = emptyPops pops + 1 := by
        have hone : (1 : BitVec 32).toNat = 1 := rfl
        rw [BitVec.toNat_add, h.flush hlt, hone]
        omega
      have hflush (hlt : emptyPops (pops ++ [p]) < 10) :
          (s.flush + 1).toNat = emptyPops (pops ++ [p]) := by
        rw [emptyPops_none pops p hp] at hlt ⊢
        exact hsucc (by omega)
      by_cases hsend : s.flush + 1 = popThreshold ∧ s.buffer.data ≠ []
      · rw [httpIteration_flush opt s p hhost hp hsend.1 hsend.2]
        exact ⟨hflush, fun _ => rfl⟩
      · have hidle (hten : s.flush + 1 = popThreshold) : s.buffer.data = [] :=
          not_not.mp fun hdata => hsend ⟨hten, hdata⟩
        rw [httpIteration_idle opt s p hp hidle]
        refine ⟨hflush, fun hten => ?_⟩
        rw [emptyPops_none pops p hp] at hten
        rcases Nat.lt_or_ge (emptyPops pops) 10 with hlt | hge
        · apply hidle
          apply BitVec.eq_of_toNat_eq
          have hthreshold : popThreshold.toNat = 10 := rfl
          rw [hsucc hlt, hthreshold]
          omega
        · exact h.data hge
  | some t =>
      have hzero : emptyPops (pops ++ [p]) = 0 := emptyPops_some pops p t hp
      have hnext : (httpIteration opt s p).1.flush = 0 := by
        by_cases hit : opt.batch ≤ (s.buffer.append t).it
        · rw [httpIteration_send opt s p t hhost hp hit]
        · rw [httpIteration_wait opt s p t hhost hp hit]
      refine ⟨fun _ => ?_, fun hten => ?_⟩
      · rw [hnext, hzero]
        rfl
      · rw [hzero] at hten
        exact absurd hten (by decide)

/-- Behind ten empty pops there is nothing left to send. -/
theorem httpSender_flushed (opt : SenderOptions) (pops : List Pop)
    (hvalid : opt.hostValid = 0 → records pops = []) (hempty : 10 ≤ emptyPops pops) :
    ((httpSender opt).after Waiting.start pops).buffer.data = [] := by
  by_cases hhost : opt.hostValid = 0
  · exact congrArg Buffer.data (sender_idle opt 0 .http pops (hvalid hhost)).2
  · have hinv := (httpSender opt).invariant (s := Waiting.start) (fun pops _ s => Flushed pops s)
      ⟨fun _ => rfl, fun _ => rfl⟩ (fun _ _ _ p h => h.next hhost p) pops
    exact hinv.data hempty

theorem le_emptyPops (pops : List Pop) (front : List (Option TelemetricHdr)) (j : Nat)
    (h : pops.map Pop.telemetric = front ++ List.replicate j none) : j ≤ emptyPops pops := by
  induction j generalizing pops with
  | zero => exact Nat.zero_le _
  | succ j ih =>
      rcases List.eq_nil_or_concat pops with rfl | ⟨pops, p, rfl⟩
      · simp at h
      · rw [List.concat_eq_append, List.map_append, List.map_singleton, List.replicate_succ',
          ← List.append_assoc] at h
        obtain ⟨hfront, hp⟩ := List.append_singleton_inj.mp h
        rw [List.concat_eq_append, emptyPops_none pops p hp]
        exact Nat.succ_le_succ (ih pops hfront)

end Flush

/-- When the ring of an http_sender accepts nothing more, a sender that has run
for some time holds nothing back. -/
theorem sender_drained {size : Nat} [NeZero size] {opt : ProgramOptions}
    {s u t : System size opt.toOptions Transport.http.Local} {before after : List (Move opt.toOptions)}
    {es₁ es₂ : List (Threads.Event opt.toOptions)} (k : Fin opt.rawBuffer.toNat)
    (hs : s.Started Transport.http.start)
    (h₁ : run (move (senders opt .http)) before s = some (es₁, u))
    (h₂ : run (move (senders opt .http)) after u = some (es₂, t))
    (hquiet : accepts k (exports es₂) = [])
    (hmoves : 5 * ((u.process.ringBuffs k).contents.length + 11) ≤ after.countP (Move.isSender k)) :
    (t.process.ringBuffs k).contents = [] ∧ Thread.hand (t.senders k) = none ∧
      (Transport.http.buffer (t.senders k).loc).data = [] := by
  have : NeZero opt.rawBuffer.toNat := ⟨by have hk := k.isLt; omega⟩
  obtain ⟨d, -, hm⟩ := exporter_refines.run (run_exporter hs h₁)
  obtain ⟨d', vs, j, hm', hpops₂, hqueue, hnil⟩ := quiet_pops k hm h₂ hquiet
  obtain ⟨pops, hloc, -, hpops, -, hvalid⟩ := sender_pops hs (run_append h₁ h₂) k
  have hten : 11 ≤ j := by
    have hpolled := run_polled k h₂
    have hlen := congrArg List.length hqueue
    rw [List.length_append, ← matches_contents hm] at hlen
    rw [hpops₂, List.length_append, List.length_map, List.length_replicate] at hpolled
    omega
  obtain ⟨i, rfl⟩ := Nat.exists_eq_succ_of_ne_zero (show j ≠ 0 by omega)
  rw [popsOf, List.filterMap_append, ← popsOf, ← popsOf, hpops₂, ← List.append_assoc] at hpops
  have hhand : Thread.hand (t.senders k) = none ∧ 10 ≤ emptyPops pops := by
    rw [Thread.hand]
    cases hpopped : (t.senders k).popped with
    | none =>
        rw [hpopped, Option.toList_none, List.append_nil] at hpops
        have hle := le_emptyPops pops _ _ hpops.symm
        exact ⟨rfl, by omega⟩
    | some popped =>
        rw [hpopped, Option.toList_some, List.replicate_succ', ← List.append_assoc] at hpops
        obtain ⟨hfront, hlast⟩ := List.append_singleton_inj.mp hpops
        have hle := le_emptyPops pops _ _ hfront.symm
        exact ⟨hlast ▸ rfl, by omega⟩
  refine ⟨?_, hhand.1, ?_⟩
  · rw [matches_contents hm']
    exact hnil (Nat.succ_pos i)
  · rw [hloc]
    exact httpSender_flushed ⟨opt.hostValid, opt.batch⟩ pops hvalid hhand.2

/-- When the ring of an http_sender accepts nothing more, all that it accepted
has been sent once the sender has run for some time. -/
theorem http_drains (size : Nat) [NeZero size] (opt : ProgramOptions)
    (s u t : System size opt.toOptions Transport.http.Local) (before after : List (Move opt.toOptions))
    (es₁ es₂ : List (Threads.Event opt.toOptions)) (k : Fin opt.rawBuffer.toNat)
    (hs : s.Started Transport.http.start)
    (h₁ : run (move (senders opt .http)) before s = some (es₁, u))
    (h₂ : run (move (senders opt .http)) after u = some (es₂, t))
    (hquiet : accepts k (exports es₂) = [])
    (hmoves : 5 * ((u.process.ringBuffs k).contents.length + 11) ≤ after.countP (Move.isSender k)) :
    (t.process.ringBuffs k).contents = [] ∧ Thread.hand (t.senders k) = none ∧
      (Transport.http.buffer (t.senders k).loc).data = [] ∧
      (sentBy k (es₁ ++ es₂)).flatten = (accepts k (exports es₁)).flatMap report := by
  obtain ⟨hcontents, hhand, hdata⟩ := sender_drained k hs h₁ h₂ hquiet hmoves
  refine ⟨hcontents, hhand, hdata, ?_⟩
  obtain ⟨b, hsent, hrest, haccepts⟩ := sent_batches hs (run_append h₁ h₂) k
  have hexports : exports (es₁ ++ es₂) = exports es₁ ++ exports es₂ := List.filterMap_append
  have hall : accepts k (exports (es₁ ++ es₂)) = accepts k (exports es₁) := by
    rw [hexports, accepts, settledAs_append, ← accepts, ← accepts, hquiet, List.append_nil]
  rw [hall, hcontents, hhand, Option.toList_none, List.append_nil, List.append_nil] at haccepts
  rw [haccepts, ← b.bodies_rest, hsent, ← hrest, hdata, List.append_nil]

theorem senders_run {size : Nat} [NeZero size] {opt : Options} {L : Type}
    (sender : Fin opt.rawBuffer.toNat → Machine L Pop Reaction) (k : Fin opt.rawBuffer.toNat) (n : Nat)
    (s : System size opt L) :
    ∃ es t, run (move sender) (List.replicate n (.sender k none)) s = some (es, t) ∧
      frames es = [] ∧ ∀ j, accepts j (exports es) = [] := by
  induction n generalizing s with
  | zero => exact ⟨[], s, rfl, rfl, fun _ => rfl⟩
  | succ n ih =>
      rcases hmove : senderMove sender k none s with ⟨u, o⟩
      obtain ⟨es, t, hrun, hframes, hquiet⟩ := ih u
      have hstep : run (move sender) [.sender k none] s = some (o.toList, u) := by
        rw [run, move, hmove]
        exact congrArg (fun es => some (es, u)) (List.append_nil _)
      have hone : frames o.toList = [] ∧ ∀ j, accepts j (exports o.toList) = [] := by
        obtain ⟨telemetric, -, -, rfl⟩ | ⟨popped, -, hpop, -⟩ := senderMove_cases hmove
        · cases ((sender k).out (s.senders k).loc ⟨telemetric, none⟩).sent <;> exact ⟨rfl, fun _ => rfl⟩
        · cases hpop <;> exact ⟨rfl, fun _ => rfl⟩
      refine ⟨_, t, run_append hstep hrun, ?_, fun j => ?_⟩
      · rw [frames, List.filterMap_append, ← frames, ← frames, hone.1, hframes]
        rfl
      · rw [exports, List.filterMap_append, accepts, settledAs_append, ← exports, ← exports, ← accepts,
          ← accepts, hone.2, hquiet]
        rfl

/-- One record is in the ring, and twelve pops bring it to the database. -/
theorem http_drains_sample :
    ∃ t es, run (move (senders Delivery.sampleOptions .http))
        (receiveMoves ++ pushMoves ++ List.replicate 60 (.sender sampleRing none)) sampleStart =
          some (es, t) ∧
      (sentBy sampleRing es).flatten = report sampleRecord := by
  have hpush : ∃ u, run (move (senders Delivery.sampleOptions .http)) pushMoves sampleReceived =
        some ([.exported (.offered sampleRecord), .exported (.accepted sampleRing sampleRecord)], u) ∧
      (u.process.ringBuffs sampleRing).contents.length = 1 := by
    refine ⟨_, rfl, ?_⟩
    rfl
  obtain ⟨u, hpush, hlen⟩ := hpush
  have hbefore := run_append receive_run hpush
  obtain ⟨es₂, t, hafter, -, hquiet⟩ :=
    senders_run (senders Delivery.sampleOptions .http) sampleRing 60 u
  have hcount : (List.replicate 60 (Move.sender sampleRing none)).countP (Move.isSender sampleRing) =
      60 := rfl
  obtain ⟨-, -, -, hsent⟩ := http_drains sampleSize Delivery.sampleOptions sampleStart u t _ _ _ _
    sampleRing sampleStart_started hbefore hafter (hquiet sampleRing) (by rw [hlen, hcount])
  refine ⟨t, _, run_append hbefore hafter, hsent.trans ?_⟩
  exact List.append_nil _

end IntPlatform.Program.Drain
