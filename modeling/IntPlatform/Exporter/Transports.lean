import IntPlatform.Exporter.HttpSender
import IntPlatform.Exporter.UdpSender

namespace IntPlatform.Exporter.Transports

open Library.Batching Library.Mealy Collector.Records AddReport Sender UdpSender HttpSender

inductive Transport
  | udp
  | http
deriving DecidableEq, Repr

/-- The sender that the constructor of the exporter starts for a protocol.
Without one it throws. -/
def transportOf (protocol : List Char) : Option Transport :=
  if protocol = "udp".toList then some .udp
  else if protocol = "http".toList ∨ protocol = "https".toList then some .http
  else none

namespace Transport

def Local : Transport → Type
  | udp => Buffer
  | http => Waiting

def start : (t : Transport) → t.Local
  | udp => Buffer.clear
  | http => Waiting.start

def buffer : (t : Transport) → t.Local → Buffer
  | udp => fun s => s
  | http => Waiting.buffer

def sender (opt : SenderOptions) (id : BitVec 32) : (t : Transport) → Machine t.Local Pop Reaction
  | udp => udpSender opt id
  | http => httpSender opt

end Transport

variable (opt : SenderOptions)

theorem Transport.sender_full (transport : Transport) (id : BitVec 32) (t : TelemetricHdr)
    (hvalid : opt.hostValid ≠ 0) (hit : (Buffer.clear.append t).it = opt.batch) :
    (transport.sender opt id).next transport.start ⟨some t, none⟩ = transport.start ∧
      ((transport.sender opt id).out transport.start ⟨some t, none⟩).sent = some (report t) := by
  have hdata : (Buffer.clear.append t).data = report t :=
    (append_data Buffer.clear t).trans (List.nil_append _)
  cases transport with
  | udp =>
      have hstep := udpIteration_send opt id Buffer.clear ⟨some t, none⟩ t hvalid rfl hit
      rw [hdata] at hstep
      change (udpIteration opt id Buffer.clear ⟨some t, none⟩).1 = Buffer.clear ∧
        (udpIteration opt id Buffer.clear ⟨some t, none⟩).2.sent = some (report t)
      rw [hstep]
      exact ⟨rfl, rfl⟩
  | http =>
      have hfull : opt.batch ≤ (Waiting.start.buffer.append t).it := BitVec.le_of_eq hit.symm
      have hstep := httpIteration_send opt Waiting.start ⟨some t, none⟩ t hvalid rfl hfull
      change (httpIteration opt Waiting.start ⟨some t, none⟩).1 = Waiting.start ∧
        (httpIteration opt Waiting.start ⟨some t, none⟩).2.sent = some (report t)
      rw [hstep]
      exact ⟨rfl, congrArg some hdata⟩

/-- Nothing is lost, duplicated or reordered in http_sender either, whatever the
batch size is. -/
theorem httpSender_batches (hvalid : opt.hostValid ≠ 0) (pops : List Pop) :
    ∃ b : Batches TelemetricHdr, b.items = records pops ∧
      bodies ((httpSender opt).outputs Waiting.start pops) = b.bodies report ∧
      Represents ((httpSender opt).after Waiting.start pops).buffer b := by
  refine (httpSender opt).invariant (fun pops rs s => ∃ b : Batches TelemetricHdr,
    b.items = records pops ∧ bodies rs = b.bodies report ∧ Represents s.buffer b) ?_ ?_ pops
  · exact ⟨Batches.empty, rfl, rfl, represents_clear _ rfl⟩
  · rintro pops rs s p ⟨b, hitems, hbodies, hrep⟩
    simp only [httpSender]
    rw [records_concat, bodies_concat, hbodies]
    cases hp : p.telemetric with
    | none =>
        rw [Option.toList_none, List.append_nil]
        by_cases hflush : s.flush + 1 = popThreshold ∧ s.buffer.data ≠ []
        · have hne : b.pending ≠ [] := mt hrep.data_eq_nil.mpr hflush.2
          rw [httpIteration_flush opt s p hvalid hp hflush.1 hflush.2]
          refine ⟨b.flush hne, (b.items_flush hne).trans hitems, ?_, represents_clear _ rfl⟩
          rw [Batches.bodies_flush, ← hrep.data]
          rfl
        · rw [httpIteration_idle opt s p hp fun h => not_not.mp fun hne => hflush ⟨h, hne⟩]
          exact ⟨b, hitems, List.append_nil _, hrep⟩
    | some t =>
        by_cases hit : opt.batch ≤ (s.buffer.append t).it
        · rw [httpIteration_send opt s p t hvalid hp hit]
          refine ⟨(b.add t).flush (b.add_pending_ne_nil t), ?_, ?_, represents_clear _ rfl⟩
          · rw [Batches.items_flush, Batches.items_add, hitems]
            rfl
          · rw [Batches.bodies_flush, Batches.bodies_add, ← (hrep.append t).data]
            rfl
        · rw [httpIteration_wait opt s p t hvalid hp hit]
          refine ⟨b.add t, ?_, List.append_nil _, hrep.append t⟩
          rw [Batches.items_add, hitems]
          rfl

theorem machine_idle {L : Type} (M : Machine L Pop Reaction) (I : L → Prop)
    (hstep : ∀ s p, I s → p.telemetric = none → (M.out s p).sent = none ∧ I (M.next s p)) (start : L)
    (hstart : I start) (pops : List Pop) (h : records pops = []) :
    bodies (M.outputs start pops) = [] ∧ I (M.after start pops) := by
  revert h
  refine M.invariant (fun pops rs s => records pops = [] → bodies rs = [] ∧ I s) ?_ ?_ pops
  · exact fun _ => ⟨rfl, hstart⟩
  · intro pops rs s p ih h
    rw [records_concat, List.append_eq_nil_iff, Option.toList_eq_nil_iff] at h
    obtain ⟨hbodies, hs⟩ := ih h.1
    obtain ⟨hsent, hnext⟩ := hstep s p hs h.2
    rw [bodies_concat, hbodies, hsent]
    exact ⟨rfl, hnext⟩

theorem sender_idle (id : BitVec 32) (t : Transport) (pops : List Pop) (h : records pops = []) :
    bodies ((t.sender opt id).outputs t.start pops) = [] ∧
      t.buffer ((t.sender opt id).after t.start pops) = Buffer.clear := by
  cases t with
  | udp =>
      refine machine_idle (udpSender opt id) (· = Buffer.clear) ?_ Buffer.clear rfl pops h
      intro s p hs hp
      simp only [udpSender, udpIteration_none opt id s p hp]
      exact ⟨trivial, hs⟩
  | http =>
      refine machine_idle (httpSender opt) (·.buffer = Buffer.clear) ?_ Waiting.start rfl pops h
      intro s p hs hp
      simp only [httpSender, httpIteration_idle opt s p hp fun _ => congrArg Buffer.data hs]
      exact ⟨trivial, hs⟩

/-- What a sender has passed to send and what is in its buffer are the texts of
the records that it popped, in order and in whole records. Without a host there
are no records. -/
theorem sender_batches (id : BitVec 32) (t : Transport) (pops : List Pop)
    (hvalid : opt.hostValid = 0 → records pops = []) :
    ∃ b : Batches TelemetricHdr, b.items = records pops ∧
      bodies ((t.sender opt id).outputs t.start pops) = b.bodies report ∧
      Represents (t.buffer ((t.sender opt id).after t.start pops)) b := by
  by_cases hhost : opt.hostValid = 0
  · obtain ⟨hbodies, hbuffer⟩ := sender_idle opt id t pops (hvalid hhost)
    rw [hbodies, hbuffer, hvalid hhost]
    exact ⟨Batches.empty, rfl, rfl, represents_clear _ rfl⟩
  · cases t with
    | udp => exact udpSender_batches opt id hhost pops
    | http => exact httpSender_batches opt hhost pops

end IntPlatform.Exporter.Transports
