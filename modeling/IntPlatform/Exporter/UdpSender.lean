import IntPlatform.Library.Mealy
import IntPlatform.Exporter.Sender

namespace IntPlatform.Exporter.UdpSender

open Library.Batching Library.Mealy Collector.Records Collector.ProcessPacket AddReport Sender

def errorText (id : BitVec 32) : Option (List Char) → List Char
  | none => []
  | some what => "ID:".toList ++ unsigned id ++ ", error: ".toList ++ what ++ "\n".toList

/-- One pop in udp_sender, with the iteration behind it. -/
def udpIteration (opt : SenderOptions) (id : BitVec 32) (s : Buffer) (p : Pop) : Buffer × Reaction :=
  match p.telemetric with
  | none => (s, ⟨none, []⟩)
  | some telemetric =>
      if opt.hostValid = 0 then (s, ⟨none, []⟩)
      else
        let s := s.append telemetric
        if s.it = opt.batch then (Buffer.clear, ⟨some s.data, errorText id p.error⟩)
        else (s, ⟨none, []⟩)

def udpSender (opt : SenderOptions) (id : BitVec 32) : Machine Buffer Pop Reaction where
  next s p := (udpIteration opt id s p).1
  out s p := (udpIteration opt id s p).2

/-- After a pop less than a batch is pending, and a record that fills the batch
was sent with all that was pending. -/
def Prompt (opt : SenderOptions) (id : BitVec 32) (earlier : List Pop) (p : Pop) : Prop :=
  let s := (udpSender opt id).after Buffer.clear earlier
  lines ((udpSender opt id).next s p).data < opt.batch.toNat ∧
    ∀ t, p.telemetric = some t → opt.batch.toNat ≤ lines (addReport t s.data).2 →
      ((udpSender opt id).out s p).sent = some (addReport t s.data).2

def Fits (batch : Nat) (earlier : List TelemetricHdr) (t : TelemetricHdr) : Prop :=
  recordLines earlier % batch + (1 + t.nodeMeta.length) ≤ batch

instance (batch : Nat) (earlier : List TelemetricHdr) (t : TelemetricHdr) :
    Decidable (Fits batch earlier t) :=
  inferInstanceAs (Decidable (_ ≤ _))

variable (opt : SenderOptions) (id : BitVec 32)

section Step

variable (s : Buffer) (p : Pop) (t : TelemetricHdr)

theorem udpIteration_none (hp : p.telemetric = none) : udpIteration opt id s p = (s, ⟨none, []⟩) := by
  rw [udpIteration, hp]

theorem udpIteration_send (hvalid : opt.hostValid ≠ 0) (hp : p.telemetric = some t)
    (hit : (s.append t).it = opt.batch) :
    udpIteration opt id s p = (Buffer.clear, ⟨some (s.append t).data, errorText id p.error⟩) := by
  rw [udpIteration, hp]
  dsimp only
  rw [if_neg hvalid, if_pos hit]

theorem udpIteration_wait (hvalid : opt.hostValid ≠ 0) (hp : p.telemetric = some t)
    (hit : (s.append t).it ≠ opt.batch) : udpIteration opt id s p = (s.append t, ⟨none, []⟩) := by
  rw [udpIteration, hp]
  dsimp only
  rw [if_neg hvalid, if_neg hit]

end Step

theorem next_none (s : Buffer) (p : Pop) (hp : p.telemetric = none) : (udpSender opt id).next s p = s :=
  congrArg Prod.fst (udpIteration_none opt id s p hp)

theorem prompt_none (earlier : List Pop) (p : Pop) (hp : p.telemetric = none) :
    Prompt opt id earlier p ↔
      lines ((udpSender opt id).after Buffer.clear earlier).data < opt.batch.toNat := by
  rw [Prompt, next_none opt id _ p hp]
  refine ⟨And.left, fun h => ⟨h, ?_⟩⟩
  intro t ht
  rw [hp] at ht
  cases ht

theorem udpSender_batches (hvalid : opt.hostValid ≠ 0) (pops : List Pop) :
    ∃ b : Batches TelemetricHdr, b.items = records pops ∧
      bodies ((udpSender opt id).outputs Buffer.clear pops) = b.bodies report ∧
      Represents ((udpSender opt id).after Buffer.clear pops) b := by
  refine (udpSender opt id).invariant (fun pops rs s => ∃ b : Batches TelemetricHdr,
    b.items = records pops ∧ bodies rs = b.bodies report ∧ Represents s b) ?_ ?_ pops
  · exact ⟨Batches.empty, rfl, rfl, represents_clear _ rfl⟩
  · rintro pops rs s p ⟨b, hitems, hbodies, hrep⟩
    simp only [udpSender]
    rw [records_concat, bodies_concat, hbodies]
    cases hp : p.telemetric with
    | none =>
        rw [udpIteration_none opt id s p hp]
        refine ⟨b, ?_, ?_, hrep⟩
        · rw [hitems, Option.toList_none, List.append_nil]
        · exact List.append_nil _
    | some t =>
        by_cases hit : (s.append t).it = opt.batch
        · rw [udpIteration_send opt id s p t hvalid hp hit]
          refine ⟨(b.add t).flush (b.add_pending_ne_nil t), ?_, ?_, represents_clear _ rfl⟩
          · rw [Batches.items_flush, Batches.items_add, hitems]
            rfl
          · rw [Batches.bodies_flush, Batches.bodies_add, ← (hrep.append t).data]
            rfl
        · rw [udpIteration_wait opt id s p t hvalid hp hit]
          refine ⟨b.add t, ?_, ?_, hrep.append t⟩
          · rw [Batches.items_add, hitems]
            rfl
          · exact List.append_nil _

section Prompt

variable (hvalid : opt.hostValid ≠ 0) (hpos : 1 ≤ opt.batch.toNat) (hmax : opt.batch.toNat ≤ 2 ^ 31 - 1)
include hvalid hmax

theorem append_it_iff (pops : List Pop) (hpops : ∀ t ∈ records pops, Exported t) (t : TelemetricHdr)
    (ht : Exported t)
    (hlt : lines ((udpSender opt id).after Buffer.clear pops).data < opt.batch.toNat) :
    (((udpSender opt id).after Buffer.clear pops).append t).it = opt.batch ↔
      lines ((udpSender opt id).after Buffer.clear pops).data + (1 + t.nodeMeta.length) =
        opt.batch.toNat := by
  obtain ⟨b, hitems, -, hrep⟩ := udpSender_batches opt id hvalid pops
  have hle : t.nodeMeta.length ≤ 256 := ht.nodeMeta
  have hlines := hrep.lines (hitems ▸ hpops)
  have hadd : recordLines (b.add t).pending = recordLines b.pending + (1 + t.nodeMeta.length) :=
    recordLines_concat _ _
  have hit := (hrep.append t).it_toNat (by omega)
  rw [← BitVec.toNat_inj, hit, hadd, hlines]

theorem prompt_record (pops : List Pop) (hpops : ∀ t ∈ records pops, Exported t) (p : Pop)
    (t : TelemetricHdr) (hp : p.telemetric = some t) (ht : Exported t) (n : Nat)
    (hn : lines ((udpSender opt id).after Buffer.clear pops).data = n) (hlt : n < opt.batch.toNat) :
    (Prompt opt id pops p ↔ n + (1 + t.nodeMeta.length) ≤ opt.batch.toNat) ∧
      (n + (1 + t.nodeMeta.length) ≤ opt.batch.toNat →
        lines ((udpSender opt id).after Buffer.clear (pops ++ [p])).data =
          (n + (1 + t.nodeMeta.length)) % opt.batch.toNat) := by
  have hit := append_it_iff opt id hvalid hmax pops hpops t ht (hn ▸ hlt)
  have hdata := lines_append_data ((udpSender opt id).after Buffer.clear pops) t ht
  rw [hn] at hit hdata
  have hnext : (udpSender opt id).next ((udpSender opt id).after Buffer.clear pops) p =
      (udpIteration opt id ((udpSender opt id).after Buffer.clear pops) p).1 := rfl
  have hout : (udpSender opt id).out ((udpSender opt id).after Buffer.clear pops) p =
      (udpIteration opt id ((udpSender opt id).after Buffer.clear pops) p).2 := rfl
  rw [Machine.after_concat, Prompt, hnext, hout]
  generalize (udpSender opt id).after Buffer.clear pops = s at hit hdata
  have hreport : (addReport t s.data).2 = (s.append t).data := rfl
  by_cases hfull : n + (1 + t.nodeMeta.length) = opt.batch.toNat
  · rw [udpIteration_send opt id s p t hvalid hp (hit.mpr hfull)]
    refine ⟨iff_of_true ⟨Nat.zero_lt_of_lt hlt, ?_⟩ (Nat.le_of_eq hfull), ?_⟩
    · intro u hu _
      rw [hp] at hu
      cases hu
      rfl
    · intro _
      rw [hfull, Nat.mod_self]
      rfl
  · rw [udpIteration_wait opt id s p t hvalid hp (fun h => hfull (hit.mp h)), hdata]
    constructor
    · constructor
      · rintro ⟨hless, -⟩
        exact Nat.le_of_lt hless
      · intro hle
        refine ⟨by omega, ?_⟩
        intro u hu hge
        rw [hp] at hu
        cases hu
        rw [hreport, hdata] at hge
        omega
    · intro hle
      exact (Nat.mod_eq_of_lt (by omega)).symm

include hpos

theorem prompt_iff_fits (pops : List Pop) (hpops : ∀ t ∈ records pops, Exported t) :
    (AtEach (Prompt opt id) pops ↔ AtEach (Fits opt.batch.toNat) (records pops)) ∧
      (AtEach (Fits opt.batch.toNat) (records pops) →
        lines ((udpSender opt id).after Buffer.clear pops).data =
          recordLines (records pops) % opt.batch.toNat) := by
  induction pops using List.reverseRecOn with
  | nil => exact ⟨iff_of_true (atEach_nil _) (atEach_nil _), fun _ => (Nat.zero_mod _).symm⟩
  | append_singleton pops p ih =>
      rw [records_concat] at hpops ⊢
      obtain ⟨hiff, hlines⟩ := ih fun t ht => hpops t (List.mem_append_left _ ht)
      have hmod := Nat.mod_lt (recordLines (records pops)) hpos
      rw [atEach_concat, hiff]
      cases hp : p.telemetric with
      | none =>
          rw [Option.toList_none, List.append_nil, Machine.after_concat, next_none opt id _ p hp,
            prompt_none opt id pops p hp]
          refine ⟨⟨And.left, ?_⟩, hlines⟩
          intro hfits
          exact ⟨hfits, hlines hfits ▸ hmod⟩
      | some t =>
          have ht : Exported t := by
            apply hpops
            rw [hp]
            exact List.mem_append_right _ List.mem_cons_self
          rw [Option.toList_some, atEach_concat, recordLines_concat]
          by_cases hfits : AtEach (Fits opt.batch.toNat) (records pops)
          · obtain ⟨hprompt, hrest⟩ := prompt_record opt id hvalid hmax pops
              (fun t ht => hpops t (List.mem_append_left _ ht)) p t hp ht _ (hlines hfits) hmod
            refine ⟨and_congr_right fun _ => hprompt, ?_⟩
            rintro ⟨-, hle⟩
            rw [hrest hle, Nat.mod_add_mod]
          · refine ⟨iff_of_false ?_ ?_, ?_⟩
            · exact fun h => hfits h.1
            · exact fun h => hfits h.1
            · exact fun h => absurd h.1 hfits

end Prompt

/-- No batch is held back exactly when the lines of the records never lead over
a multiple of the batch. -/
theorem batch_sent_iff (hvalid : opt.hostValid ≠ 0) (hpos : 1 ≤ opt.batch.toNat)
    (hmax : opt.batch.toNat ≤ 2 ^ 31 - 1) (pops : List Pop) (hpops : ∀ t ∈ records pops, Exported t) :
    AtEach (Prompt opt id) pops ↔ AtEach (Fits opt.batch.toNat) (records pops) :=
  (prompt_iff_fits opt id hvalid hpos hmax pops hpops).1

theorem batch_sent_sample : AtEach (Prompt ⟨1, 6⟩ 0) [⟨some oneHop, none⟩, ⟨some oneHop, none⟩] := by
  rw [batch_sent_iff ⟨1, 6⟩ 0 (by decide) (by decide) (by decide) _
    (fun t ht => by
      obtain rfl : t = oneHop := by simpa [records] using ht
      exact oneHop_exported)]
  have hfirst : AtEach (Fits 6) [oneHop] := (atEach_concat _ [] _).mpr ⟨atEach_nil _, by decide⟩
  exact (atEach_concat _ [oneHop] _).mpr ⟨hfirst, by decide⟩

theorem batch_held_back :
    ¬ AtEach (Prompt ⟨1, 1000⟩ 0) (List.replicate 334 ⟨some oneHop, none⟩) := by
  have hrecords : records (List.replicate 334 ⟨some oneHop, none⟩) = List.replicate 334 oneHop :=
    List.filterMap_replicate_of_some rfl
  have hiff := prompt_iff_fits ⟨1, 1000⟩ 0 (by decide) (by decide) (by decide)
    (List.replicate 334 ⟨some oneHop, none⟩)
  rw [hrecords] at hiff
  rw [(hiff fun t ht => List.eq_of_mem_replicate ht ▸ oneHop_exported).1]
  intro h
  have hlast := h (List.replicate 333 oneHop) oneHop [] List.replicate_succ'
  rw [Fits, recordLines_replicate] at hlast
  exact absurd hlast (by decide)

end IntPlatform.Exporter.UdpSender
