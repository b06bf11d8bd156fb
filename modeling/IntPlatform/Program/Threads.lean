import IntPlatform.Library.Schedules
import IntPlatform.Collector.Runs
import IntPlatform.Exporter.Conservation
import IntPlatform.Exporter.HttpSender
import IntPlatform.Exporter.UdpSender

namespace IntPlatform.Program.Threads

open Library.Formats Library.Mealy Library.RoundRobin Library.Schedules
open Collector.Records Collector.ProcessPacket Collector.Buffers Collector.Loop Collector.Runs
open Exporter.RingBuffer Exporter.SendData Exporter.Sender

inductive Main
  | testing
  | receiving
  | reporting (tmpHdr : TelemetricHdr)
  | ended

/-- A sender between two pops, with its variables. What the last pop returned
is there until the iteration behind it has run. -/
structure Thread (L : Type) where
  popped : Option (Option TelemetricHdr)
  loc : L

structure System (size : Nat) (opt : Options) (L : Type) where
  main : Main
  stop : Bool
  buffer : List Byte
  flowMap : BitVec 64 → MetaData
  prevTimestamps : Timestamps maxNodes
  process : Process size opt TelemetricHdr
  senders : Fin opt.rawBuffer.toNat → Thread L

/-- What a step can show: a frame is received, sendData or a sender uses a ring,
a pop finds its ring empty, a body is passed to send, or the signal handler
prints its totals. -/
inductive Event (opt : Options)
  | received (frame : List Byte)
  | exported (e : ExportEvent opt TelemetricHdr)
  | foundEmpty (k : Fin opt.rawBuffer.toNat)
  | sent (k : Fin opt.rawBuffer.toNat) (body : List Char)
  | printed (total drop : BitVec 64)

/-- A step of one thread, with what the environment decides for it: the frame
that recvfrom returns, and the error of a send. A failing recvfrom leaves the
buffer as it is, like an empty frame. -/
inductive Move (opt : Options)
  | main (frame : List Byte)
  | sender (k : Fin opt.rawBuffer.toNat) (error : Option (List Char))
  | sigint

variable {size : Nat} [NeZero size] {opt : Options} {L : Type}

def System.state (s : System size opt L) : State :=
  ⟨s.flowMap, s.prevTimestamps, s.process.pktCnt, s.process.pktDrop⟩

/-- The loop goes on when report_to_influx has returned. -/
def Main.behind (tmpHdr : TelemetricHdr) : Call TelemetricHdr → Main
  | .outside => .testing
  | _ => .reporting tmpHdr

def mainStep (frame : List Byte) (s : System size opt L) :
    Option (System size opt L × Option (Event opt)) :=
  match s.main with
  | .testing => some ({ s with main := if s.stop then .ended else .receiving }, none)
  | .receiving =>
      match processPacket opt s.state (recvfrom frame s.buffer) with
      | .error _ => none
      | .ok (tmpHdr, st) =>
          some ({ s with
            main := .reporting tmpHdr
            buffer := recvfrom frame s.buffer
            flowMap := st.flowMap
            prevTimestamps := st.prevTimestamps }, some (.received frame))
  | .reporting tmpHdr =>
      (reportStep tmpHdr s.process).map fun (process, o) =>
        ({ s with process := process, main := Main.behind tmpHdr process.call }, o.map .exported)
  | .ended => none

/-- A sender runs the iteration behind its last pop, or goes on with the next pop. -/
def senderMove (sender : Fin opt.rawBuffer.toNat → Machine L Pop Reaction)
    (k : Fin opt.rawBuffer.toNat) (error : Option (List Char)) (s : System size opt L) :
    System size opt L × Option (Event opt) :=
  match (s.senders k).popped with
  | some telemetric =>
      let p : Pop := ⟨telemetric, error⟩
      let loc := (s.senders k).loc
      ({ s with senders := Function.update s.senders k ⟨none, (sender k).next loc p⟩ },
        ((sender k).out loc p).sent.map (.sent k))
  | none =>
      let (ring, o) := consumerStep (s.process.ringBuffs k)
      let s := { s with
        process := { s.process with ringBuffs := Function.update s.process.ringBuffs k ring } }
      match o with
      | some (.pop v) =>
          ({ s with senders := Function.update s.senders k ⟨some (some v), (s.senders k).loc⟩ },
            some (.exported (.taken k v)))
      | some .empty =>
          ({ s with senders := Function.update s.senders k ⟨some none, (s.senders k).loc⟩ },
            some (.foundEmpty k))
      | _ => (s, none)

/-- The handler prints the counters and sets the flag. -/
def setupStop (s : System size opt L) : System size opt L × Option (Event opt) :=
  ({ s with stop := true }, some (.printed s.process.pktCnt s.process.pktDrop))

def move (sender : Fin opt.rawBuffer.toNat → Machine L Pop Reaction) :
    Move opt → System size opt L → Option (System size opt L × Option (Event opt))
  | .main frame, s => mainStep frame s
  | .sender k error, s => some (senderMove sender k error s)
  | .sigint, s => some (setupStop s)

/-- The program when loop_proccess begins. The buffer is not initialised. -/
structure System.Started (start : L) (s : System size opt L) : Prop where
  main : s.main = .testing
  stop : s.stop = false
  buffer : s.buffer.length = pktBufSize
  flowMap : s.flowMap = State.initial.flowMap
  prevTimestamps : s.prevTimestamps = State.initial.prevTimestamps
  process : s.process.Started
  senders : ∀ k, s.senders k = ⟨none, start⟩

section Events

def Event.frame? : Event opt → Option (List Byte)
  | .received frame => some frame
  | _ => none

def Event.export? : Event opt → Option (ExportEvent opt TelemetricHdr)
  | .exported e => some e
  | _ => none

def Event.bodyOf (k : Fin opt.rawBuffer.toNat) : Event opt → Option (List Char)
  | .sent j body => if j = k then some body else none
  | _ => none

def Event.popOf (k : Fin opt.rawBuffer.toNat) : Event opt → Option (Option TelemetricHdr)
  | .exported (.taken j v) => if j = k then some (some v) else none
  | .foundEmpty j => if j = k then some none else none
  | _ => none

def frames (es : List (Event opt)) : List (List Byte) := es.filterMap Event.frame?

def exports (es : List (Event opt)) : List (ExportEvent opt TelemetricHdr) := es.filterMap Event.export?

def sentBy (k : Fin opt.rawBuffer.toNat) (es : List (Event opt)) : List (List Char) :=
  es.filterMap (Event.bodyOf k)

def popsOf (k : Fin opt.rawBuffer.toNat) (es : List (Event opt)) : List (Option TelemetricHdr) :=
  es.filterMap (Event.popOf k)

variable (es : List (Event opt)) (o : Option (Event opt)) (k : Fin opt.rawBuffer.toNat)

theorem frames_concat : frames (es ++ o.toList) = frames es ++ (o.bind Event.frame?).toList := by
  rw [frames, List.filterMap_append, filterMap_toList, frames]

theorem exports_concat : exports (es ++ o.toList) = exports es ++ (o.bind Event.export?).toList := by
  rw [exports, List.filterMap_append, filterMap_toList, exports]

theorem sentBy_concat : sentBy k (es ++ o.toList) = sentBy k es ++ (o.bind (Event.bodyOf k)).toList := by
  rw [sentBy, List.filterMap_append, filterMap_toList, sentBy]

theorem popsOf_concat : popsOf k (es ++ o.toList) = popsOf k es ++ (o.bind (Event.popOf k)).toList := by
  rw [popsOf, List.filterMap_append, filterMap_toList, popsOf]

theorem takes_exports : takes k (exports es) = (popsOf k es).filterMap id := by
  rw [takes, exports, popsOf, List.filterMap_filterMap, List.filterMap_filterMap]
  apply List.filterMap_congr
  intro e _
  cases e with
  | exported e =>
      cases e with
      | taken j v => by_cases hj : j = k <;> simp [Event.export?, Event.popOf, Event.takenFrom, hj]
      | offered v | refused j v | accepted j v | rejected v => rfl
  | foundEmpty j => by_cases hj : j = k <;> simp [Event.export?, Event.popOf, hj]
  | received frame | sent j body | printed total drop => rfl

end Events

section Steps

variable {s t : System size opt L} {o : Option (Event opt)}

theorem mainStep_cases {frame : List Byte} (h : mainStep frame s = some (t, o)) :
    (s.main = .testing ∧ t = { s with main := if s.stop then .ended else .receiving } ∧ o = none) ∨
      (∃ tmpHdr st, s.main = .receiving ∧
        processPacket opt s.state (recvfrom frame s.buffer) = .ok (tmpHdr, st) ∧
        t = { s with
          main := .reporting tmpHdr
          buffer := recvfrom frame s.buffer
          flowMap := st.flowMap
          prevTimestamps := st.prevTimestamps } ∧ o = some (.received frame)) ∨
      ∃ tmpHdr process e, s.main = .reporting tmpHdr ∧ reportStep tmpHdr s.process = some (process, e) ∧
        t = { s with process := process, main := Main.behind tmpHdr process.call } ∧
        o = e.map .exported := by
  rw [mainStep] at h
  cases hm : s.main with
  | testing =>
      rw [hm] at h
      cases h
      exact .inl ⟨rfl, rfl, rfl⟩
  | receiving =>
      rw [hm] at h
      dsimp only at h
      split at h
      · cases h
      · next tmpHdr st hp =>
        cases h
        exact .inr (.inl ⟨tmpHdr, st, rfl, hp, rfl, rfl⟩)
  | reporting tmpHdr =>
      rw [hm] at h
      obtain ⟨⟨process, e⟩, hr, he⟩ := Option.map_eq_some_iff.mp h
      cases he
      exact .inr (.inr ⟨tmpHdr, process, e, rfl, hr, rfl, rfl⟩)
  | ended =>
      rw [hm] at h
      cases h

theorem mainStep_receive {frame : List Byte} {tmpHdr : TelemetricHdr} {st : State}
    (hm : s.main = .receiving)
    (hp : processPacket opt s.state (recvfrom frame s.buffer) = .ok (tmpHdr, st)) :
    mainStep frame s = some ({ s with
      main := .reporting tmpHdr
      buffer := recvfrom frame s.buffer
      flowMap := st.flowMap
      prevTimestamps := st.prevTimestamps }, some (.received frame)) := by
  rw [mainStep, hm]
  dsimp only
  rw [hp]

inductive PopStep (k : Fin opt.rawBuffer.toNat) (s : System size opt L) :
    Option (Option TelemetricHdr) → Option (Event opt) → Prop
  | silent : (senderStep k s.process).2 = none → (consumerStep (s.process.ringBuffs k)).2 = none →
      PopStep k s none none
  | taken (v : TelemetricHdr) : (senderStep k s.process).2 = some (.taken k v) →
      PopStep k s (some (some v)) (some (.exported (.taken k v)))
  | empty : (senderStep k s.process).2 = none → (consumerStep (s.process.ringBuffs k)).2 = some .empty →
      PopStep k s (some none) (some (.foundEmpty k))

theorem consumerStep_out {size : Nat} [NeZero size] {T : Type} (r : Ring size T)
    (hpop : ∀ v, (consumerStep r).2 ≠ some (.pop v)) (hempty : (consumerStep r).2 ≠ some .empty) :
    (consumerStep r).2 = none := by
  rw [consumerStep] at hpop hempty ⊢
  cases hc : r.consumer with
  | idle | reading tail => rfl
  | loadedTail tail =>
      rw [hc] at hempty
      dsimp only at hempty ⊢
      split
      · next he =>
        rw [if_pos he] at hempty
        exact absurd rfl hempty
      · rfl
  | storing tail v =>
      rw [hc] at hpop
      exact absurd rfl (hpop v)

theorem senderStep_rings {T : Type} (k : Fin opt.rawBuffer.toNat) (s : Process size opt T) :
    (senderStep k s).1.ringBuffs =
      Function.update s.ringBuffs k (consumerStep (s.ringBuffs k)).1 := by
  rw [senderStep]
  dsimp only
  split <;> rfl

theorem senderMove_cases {sender : Fin opt.rawBuffer.toNat → Machine L Pop Reaction}
    {k : Fin opt.rawBuffer.toNat} {error : Option (List Char)}
    (h : senderMove sender k error s = (t, o)) :
    (∃ telemetric, (s.senders k).popped = some telemetric ∧
        t = { s with
          senders := Function.update s.senders k
            ⟨none, (sender k).next (s.senders k).loc ⟨telemetric, error⟩⟩ } ∧
        o = ((sender k).out (s.senders k).loc ⟨telemetric, error⟩).sent.map (.sent k)) ∨
      ∃ popped, (s.senders k).popped = none ∧ PopStep k s popped o ∧
        t = { s with
          process := (senderStep k s.process).1
          senders := Function.update s.senders k ⟨popped, (s.senders k).loc⟩ } := by
  rw [senderMove] at h
  cases hp : (s.senders k).popped with
  | some telemetric =>
      rw [hp] at h
      cases h
      exact .inl ⟨telemetric, rfl, rfl, rfl⟩
  | none =>
      have hstay : Function.update s.senders k ⟨none, (s.senders k).loc⟩ = s.senders := by
        rw [← hp]
        exact Function.update_eq_self k s.senders
      have hq : (senderStep k s.process).1 = { s.process with
          ringBuffs := Function.update s.process.ringBuffs k (consumerStep (s.process.ringBuffs k)).1 } := by
        rw [senderStep]
        dsimp only
        split <;> rfl
      rw [hp] at h
      rw [hq]
      dsimp only at h
      split at h
      · next v he =>
        cases h
        refine .inr ⟨_, rfl, .taken v ?_, rfl⟩
        simp only [senderStep, he]
      · next he =>
        cases h
        refine .inr ⟨_, rfl, .empty ?_ he, rfl⟩
        simp only [senderStep, he]
      · next hpop hempty =>
        cases h
        refine .inr ⟨none, rfl, .silent ?_ (consumerStep_out _ hpop hempty), ?_⟩
        · rw [senderStep]
          dsimp only
          split
          · next v he => exact absurd he (hpop v)
          · rfl
        · rw [hstay]

end Steps

end IntPlatform.Program.Threads
