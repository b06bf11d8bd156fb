import Mathlib.Data.Int.GCD
import Mathlib.Tactic.Ring
import IntPlatform.Collector.Arguments
import IntPlatform.Exporter.ReportWidths
import IntPlatform.Exporter.UdpSender

namespace IntPlatform.Exporter.DatagramSize

open Library.Batching Library.CommandLine Library.Mealy
open Collector.Records Collector.Arguments AddReport ReportWidths Sender UdpSender

def maxDatagram : Nat := 65507

def full (batch : BitVec 32) (group : List TelemetricHdr) : Bool :=
  decide (BitVec.ofNat 32 (recordLines group) = batch)

def groupWidth (group : List TelemetricHdr) : Nat := (group.map recordWidth).sum

def batchGiven (scanned : List Scanned) : BitVec 32 :=
  ((lastArgument 'b' scanned).map fun text => (atoi text).1).getD 1000

def HostGiven (scanned : List Scanned) : Prop := (lastArgument 'c' scanned).isSome

instance (scanned : List Scanned) : Decidable (HostGiven scanned) :=
  inferInstanceAs (Decidable ((lastArgument 'c' scanned).isSome = true))

section Sender

variable (opt : SenderOptions) (id : BitVec 32)

theorem bodies_hostless (hhost : opt.hostValid = 0) (pops : List Pop) (s : Buffer) :
    bodies ((udpSender opt id).outputs s pops) = [] := by
  rw [bodies, List.filterMap_eq_nil_iff]
  intro r hr
  obtain ⟨t, p, -, rfl⟩ := Machine.mem_outputs _ s pops r hr
  change (udpIteration opt id t p).2.sent = none
  rw [udpIteration]
  split
  · rfl
  · rw [if_pos hhost]

theorem bodies_eq_groups (hvalid : opt.hostValid ≠ 0) (pops : List Pop) (s : Buffer)
    (b : Batches TelemetricHdr) (h : Represents s b) :
    bodies ((udpSender opt id).outputs s pops) =
      (groups (full opt.batch) b.pending (records pops)).map (List.flatMap report) := by
  induction pops generalizing s b with
  | nil => rfl
  | cons p pops ih =>
      rw [Machine.outputs, bodies_cons, records_cons]
      simp only [udpSender] at ih ⊢
      cases hp : p.telemetric with
      | none =>
          rw [udpIteration_none opt id s p hp]
          exact ih s b h
      | some t =>
          have hadd := h.append t
          have hpending : b.pending ++ [t] = (b.add t).pending := rfl
          rw [Option.toList_some, List.singleton_append, groups, hpending]
          by_cases hit : (s.append t).it = opt.batch
          · have hfull : full opt.batch (b.add t).pending = true := decide_eq_true (hadd.it ▸ hit)
            rw [udpIteration_send opt id s p t hvalid hp hit, if_pos hfull, List.map_cons,
              ih Buffer.clear Batches.empty (represents_clear _ rfl), hadd.data]
            rfl
          · have hfull : ¬ full opt.batch (b.add t).pending = true := by
              intro hfull
              exact hit (hadd.it.trans (of_decide_eq_true hfull))
            rw [udpIteration_wait opt id s p t hvalid hp hit, if_neg hfull]
            exact ih (s.append t) (b.add t) hadd

end Sender

section Groups

variable (batch : BitVec 32) (pending records group : List TelemetricHdr)

theorem length_group : (group.flatMap report).length = groupWidth group := length_reports group

theorem recordLines_group (h : group ∈ groups (full batch) pending records) :
    recordLines group % 2 ^ 32 = batch.toNat := by
  have hfull := of_decide_eq_true (full_of_mem_groups _ _ _ _ h)
  rw [← hfull, BitVec.toNat_ofNat]

theorem groupWidth_ge : 92 * recordLines group ≤ groupWidth group := by
  induction group with
  | nil => exact Nat.le_refl _
  | cons t group ih =>
      have ht := recordWidth_ge t
      rw [recordLines, Nat.mul_add]
      exact Nat.add_le_add ht ih

theorem groupWidth_large (hbatch : 713 ≤ batch.toNat) (h : group ∈ groups (full batch) pending records) :
    maxDatagram < groupWidth group := by
  have hlines := recordLines_group batch pending records group h
  have hmod := Nat.mod_le (recordLines group) (2 ^ 32)
  have hwidth := groupWidth_ge group
  rw [maxDatagram]
  omega

/-- A line of the record takes no more than its share of a datagram, with the
batch for a datagram. -/
def Narrow (batch : BitVec 32) (t : TelemetricHdr) : Prop :=
  batch.toNat * recordWidth t ≤ maxDatagram * (1 + t.nodeMeta.length)

theorem narrow_small (t : TelemetricHdr) (ht : Exported t) (hbatch : batch.toNat ≤ 229) : Narrow batch t := by
  obtain ⟨hsrc, hdst⟩ := ht.dottedDecimal
  have hwidth := recordWidth_le t hsrc.length hdst.length
  have hmul := Nat.mul_le_mul hbatch hwidth
  rw [Narrow, maxDatagram]
  omega

theorem groupWidth_narrow (h : ∀ t ∈ group, Narrow batch t) :
    batch.toNat * groupWidth group ≤ maxDatagram * recordLines group := by
  induction group with
  | nil => exact Nat.le_refl _
  | cons t group ih =>
      have ht := h t List.mem_cons_self
      have hgroup := ih fun u hu => h u (List.mem_cons_of_mem t hu)
      have hcons : groupWidth (t :: group) = recordWidth t + groupWidth group := rfl
      rw [hcons, recordLines, Nat.mul_add, Nat.mul_add]
      exact Nat.add_le_add ht hgroup

theorem groupWidth_fits (hlines : recordLines records < 2 ^ 32) (hnarrow : ∀ t ∈ records, Narrow batch t)
    (h : group ∈ groups (full batch) [] records) : groupWidth group ≤ maxDatagram := by
  have hsub := sublist_of_mem_groups _ _ _ _ h
  have hle := recordLines_sublist hsub
  have hgroup := recordLines_group batch [] records group h
  have hwidth := groupWidth_narrow batch group fun t ht => hnarrow t (hsub.subset ht)
  rw [List.nil_append] at hle
  rw [Nat.mod_eq_of_lt (Nat.lt_of_le_of_lt hle hlines)] at hgroup
  have hpos : 0 < recordLines group := by
    obtain ⟨t, rest, rfl⟩ := List.exists_cons_of_ne_nil (ne_nil_of_mem_groups _ _ _ _ h)
    rw [recordLines]
    omega
  rw [hgroup, Nat.mul_comm] at hwidth
  exact Nat.le_of_mul_le_mul_right hwidth (hgroup ▸ hpos)

end Groups

section Uniform

variable (n : Nat) (batch : BitVec 32) (group : List TelemetricHdr)
  (h : ∀ r ∈ group, r.nodeMeta.length = n)

include h

theorem recordLines_uniform : recordLines group = group.length * (n + 1) := by
  induction group with
  | nil => exact (Nat.zero_mul _).symm
  | cons r group ih =>
      rw [recordLines, ih fun u hu => h u (List.mem_cons_of_mem r hu), h r List.mem_cons_self,
        List.length_cons, Nat.succ_mul]
      omega

theorem full_uniform : full batch group = true ↔ group.length * (n + 1) % 2 ^ 32 = batch.toNat := by
  rw [full, decide_eq_true_iff, ← BitVec.toNat_inj, BitVec.toNat_ofNat, recordLines_uniform n group h]

theorem full_not_dividing (hdvd : ¬ n + 1 ∣ batch.toNat) (hfull : full batch group = true) :
    2 ^ 32 ≤ group.length * (n + 1) := by
  rw [full_uniform n batch group h] at hfull
  by_contra hlt
  rw [Nat.mod_eq_of_lt (Nat.not_le.mp hlt)] at hfull
  exact hdvd ⟨group.length, hfull.symm.trans (Nat.mul_comm _ _)⟩

end Uniform

section Missed

variable (batch : BitVec 32)

theorem exists_missing : ∃ n ≤ 10, (n + 1).Coprime (2 ^ 32) ∧
    (713 ≤ batch.toNat ∨ batch.toNat = 0 ∨ ¬ n + 1 ∣ batch.toNat) := by
  by_cases hthree : 3 ∣ batch.toNat
  · by_cases hfive : 5 ∣ batch.toNat
    · by_cases hseven : 7 ∣ batch.toNat
      · exact ⟨10, by omega, by decide, by omega⟩
      · exact ⟨6, by omega, by decide, .inr (.inr hseven)⟩
    · exact ⟨4, by omega, by decide, .inr (.inr hfive)⟩
  · exact ⟨2, by omega, by decide, .inr (.inr hthree)⟩

theorem exists_full (n : Nat) (hn : (n + 1).Coprime (2 ^ 32)) :
    ∃ k, 0 < k ∧ k * (n + 1) % 2 ^ 32 = batch.toNat := by
  obtain ⟨m, -, hm⟩ := Nat.exists_mul_mod_eq_one_of_coprime hn (by omega)
  refine ⟨batch.toNat * m + 2 ^ 32, by omega, ?_⟩
  have hsplit : (batch.toNat * m + 2 ^ 32) * (n + 1) = batch.toNat * ((n + 1) * m) + 2 ^ 32 * (n + 1) := by
    ring
  rw [hsplit, Nat.add_mul_mod_self_left, Nat.mul_mod, hm, Nat.mul_one, Nat.mod_mod,
    Nat.mod_eq_of_lt batch.isLt]

def overHops (n : Nat) : TelemetricHdr := { oneHop with nodeMeta := List.replicate n default }

theorem overHops_exported (n : Nat) (hn : n ≤ 10) : Exported (overHops n) := by
  refine ⟨⟨_, rfl⟩, ⟨_, rfl⟩, ?_⟩
  have hreach : 10 ≤ reach := by decide
  exact Nat.le_trans (Nat.le_of_eq List.length_replicate) (Nat.le_trans hn hreach)

theorem exists_too_long : ∃ k t, Exported t ∧ ∃ group ∈ groups (full batch) [] (List.replicate k t),
    maxDatagram < groupWidth group := by
  obtain ⟨n, hn, hcoprime, hmissed⟩ := exists_missing batch
  obtain ⟨k, hk, hlines⟩ := exists_full batch n hcoprime
  have hlength (j : Nat) : ∀ r ∈ List.replicate j (overHops n), r.nodeMeta.length = n := by
    intro r hr
    rw [List.eq_of_mem_replicate hr]
    exact List.length_replicate
  have hfull : full batch (List.replicate k (overHops n)) = true := by
    rwa [full_uniform n batch _ (hlength k), List.length_replicate]
  obtain ⟨group, hgroup⟩ := List.exists_mem_of_ne_nil _
    (groups_ne_nil (full batch) [] (List.replicate k (overHops n)) (by simp; omega) hfull)
  refine ⟨k, overHops n, overHops_exported n hn, group, hgroup, ?_⟩
  have hsub := sublist_of_mem_groups _ _ _ _ hgroup
  obtain ⟨j, -, rfl⟩ := List.sublist_replicate_iff.mp hsub
  have hne := ne_nil_of_mem_groups _ _ _ _ hgroup
  have hjfull := full_of_mem_groups _ _ _ _ hgroup
  have hwidth := groupWidth_ge (List.replicate j (overHops n))
  have hmod := recordLines_group batch [] _ _ hgroup
  rw [recordLines_uniform n _ (hlength j), List.length_replicate] at hwidth hmod
  have hlarge : 713 ≤ j * (n + 1) := by
    have hle := Nat.mod_le (j * (n + 1)) (2 ^ 32)
    rcases hmissed with hlarge | hzero | hdvd
    · omega
    · have hpos : 0 < j * (n + 1) := by
        apply Nat.mul_pos
        · exact Nat.pos_of_ne_zero fun hj => hne (by rw [hj]; rfl)
        · exact Nat.succ_pos n
      by_contra hlt
      rw [Nat.mod_eq_of_lt (by omega)] at hmod
      omega
    · have hrun := full_not_dividing n batch _ (hlength j) hdvd hjfull
      rw [List.length_replicate] at hrun
      omega
  rw [maxDatagram]
  omega

end Missed

section Bodies

variable (opt : SenderOptions) (id : BitVec 32) (hvalid : opt.hostValid ≠ 0)

include hvalid

theorem bodies_fit_groups (pops : List Pop) :
    (∀ body ∈ bodies ((udpSender opt id).outputs Buffer.clear pops), body.length ≤ maxDatagram) ↔
      ∀ group ∈ groups (full opt.batch) [] (records pops), groupWidth group ≤ maxDatagram := by
  rw [bodies_eq_groups opt id hvalid pops Buffer.clear Batches.empty (represents_clear _ rfl),
    List.forall_mem_map]
  simp only [length_group]
  exact Iff.rfl

theorem bodies_fit_small (pops : List Pop) (hnarrow : ∀ t ∈ records pops, Narrow opt.batch t)
    (hlines : recordLines (records pops) < 2 ^ 32) :
    ∀ body ∈ bodies ((udpSender opt id).outputs Buffer.clear pops), body.length ≤ maxDatagram := by
  rw [bodies_fit_groups opt id hvalid pops]
  exact fun group hgroup => groupWidth_fits opt.batch (records pops) group hlines hnarrow hgroup

theorem bodies_fit_large (pops : List Pop) (hbatch : 713 ≤ opt.batch.toNat) :
    (∀ body ∈ bodies ((udpSender opt id).outputs Buffer.clear pops), body.length ≤ maxDatagram) ↔
      ∀ front rest, records pops = front ++ rest → front ≠ [] →
        recordLines front % 2 ^ 32 ≠ opt.batch.toNat := by
  rw [bodies_fit_groups opt id hvalid pops]
  have hfull (front : List TelemetricHdr) :
      full opt.batch front = true ↔ recordLines front % 2 ^ 32 = opt.batch.toNat := by
    rw [full, decide_eq_true_iff, ← BitVec.toNat_inj, BitVec.toNat_ofNat]
  have hlarge : (∀ group ∈ groups (full opt.batch) [] (records pops), groupWidth group ≤ maxDatagram) ↔
      groups (full opt.batch) [] (records pops) = [] := by
    rw [List.eq_nil_iff_forall_not_mem]
    refine forall_congr' fun group => ⟨fun hle hgroup => ?_, fun hno hgroup => absurd hgroup hno⟩
    exact Nat.not_lt.mpr (hle hgroup) (groupWidth_large opt.batch [] _ group hbatch hgroup)
  rw [hlarge]
  constructor
  · intro hnil front rest hsplit hne hmod
    rw [hsplit] at hnil
    exact groups_prefix _ [] front rest (groups_ne_nil _ [] front hne ((hfull front).mpr hmod)) hnil
  · intro hall
    by_contra hgroups
    obtain ⟨front, rest, hsplit, hne, hfront⟩ := exists_full_of_groups _ _ _ hgroups
    exact hall front rest hsplit hne ((hfull front).mp hfront)

theorem exists_body_too_long : ∃ pops, (∀ t ∈ records pops, Exported t) ∧
    ∃ body ∈ bodies ((udpSender opt id).outputs Buffer.clear pops), maxDatagram < body.length := by
  obtain ⟨k, t, ht, group, hgroup, hlong⟩ := exists_too_long opt.batch
  have hrecords : records (List.replicate k ⟨some t, none⟩) = List.replicate k t :=
    List.filterMap_replicate_of_some rfl
  refine ⟨List.replicate k ⟨some t, none⟩, ?_, group.flatMap report, ?_, ?_⟩
  · intro u hu
    rw [hrecords] at hu
    rwa [List.eq_of_mem_replicate hu]
  · rw [bodies_eq_groups opt id hvalid _ Buffer.clear Batches.empty (represents_clear _ rfl), hrecords]
    exact List.mem_map_of_mem hgroup
  · rwa [length_group]

end Bodies

/-- The bodies fit for all records that can be popped exactly when no host is
given. With a host a batch of 713 or more, such as the default, fits exactly as
long as it is never filled, and any batch while all records are narrow and fewer
than 2^32 lines were counted; up to 229 every record is narrow. -/
theorem bodies_fit_iff (strict : Bool) (uninit o : ProgramOptions) (argv : List (List Char))
    (hok : parseArguments strict uninit argv = .ok o) :
    ((∀ id pops, (∀ t ∈ records pops, Exported t) →
        ∀ body ∈ bodies ((udpSender ⟨o.hostValid, o.batch⟩ id).outputs Buffer.clear pops),
          body.length ≤ maxDatagram) ↔
      ¬ HostGiven (getopt optstring strict true argv)) ∧
    (HostGiven (getopt optstring strict true argv) →
      713 ≤ (batchGiven (getopt optstring strict true argv)).toNat → ∀ id pops,
        ((∀ body ∈ bodies ((udpSender ⟨o.hostValid, o.batch⟩ id).outputs Buffer.clear pops),
            body.length ≤ maxDatagram) ↔
          ∀ front rest, records pops = front ++ rest → front ≠ [] →
            recordLines front % 2 ^ 32 ≠ (batchGiven (getopt optstring strict true argv)).toNat)) ∧
    (∀ id pops, (∀ t ∈ records pops, Narrow (batchGiven (getopt optstring strict true argv)) t) →
      recordLines (records pops) < 2 ^ 32 →
        ∀ body ∈ bodies ((udpSender ⟨o.hostValid, o.batch⟩ id).outputs Buffer.clear pops),
          body.length ≤ maxDatagram) ∧
    ((batchGiven (getopt optstring strict true argv)).toNat ≤ 229 →
      ∀ t, Exported t → Narrow (batchGiven (getopt optstring strict true argv)) t) := by
  have hhost : o.hostValid ≠ 0 ↔ HostGiven (getopt optstring strict true argv) :=
    hostValid_iff strict uninit o argv hok
  have hbatch : o.batch = batchGiven (getopt optstring strict true argv) :=
    (parseArguments_ok strict uninit o argv hok).2.2
  rw [← hhost, ← hbatch]
  refine ⟨?_, ?_, ?_, fun hsmall t ht => narrow_small o.batch t ht hsmall⟩
  · constructor
    · intro hall hvalid
      obtain ⟨pops, hpops, body, hbody, hlong⟩ := exists_body_too_long ⟨o.hostValid, o.batch⟩ 0 hvalid
      exact Nat.not_lt.mpr (hall 0 pops hpops body hbody) hlong
    · intro hvalid id pops _ body hbody
      rw [bodies_hostless ⟨o.hostValid, o.batch⟩ id (not_not.mp hvalid)] at hbody
      cases hbody
  · exact fun hvalid hlarge id pops => bodies_fit_large ⟨o.hostValid, o.batch⟩ id hvalid pops hlarge
  · intro id pops hnarrow hlines
    by_cases hvalid : o.hostValid = 0
    · rw [bodies_hostless ⟨o.hostValid, o.batch⟩ id hvalid]
      exact List.forall_mem_nil _
    · exact bodies_fit_small ⟨o.hostValid, o.batch⟩ id hvalid pops hnarrow hlines

def udpArgs : List (List Char) :=
  ["p4int".toList, "-r".toList, "udp".toList, "-c".toList, "10.0.0.9".toList, "-p".toList, "8089".toList]

def udpOptions : ProgramOptions :=
  { defaults cleared with host := "10.0.0.9".toList, hostValid := 1, port := 8089, protocol := "udp".toList }

def threeNodes : TelemetricHdr := { oneHop with nodeMeta := [default, default, default] }

theorem threeNodes_exported : Exported threeNodes := ⟨⟨_, rfl⟩, ⟨_, rfl⟩, by decide⟩

theorem bodies_fit_sample :
    bodies ((udpSender ⟨1, 4⟩ 0).outputs Buffer.clear [⟨some threeNodes, none⟩]) =
        [report threeNodes] ∧
      (report threeNodes).length ≤ maxDatagram := by
  obtain ⟨-, -, hfits, hnarrow⟩ := bodies_fit_iff false cleared { udpOptions with batch := 4 }
    (udpArgs ++ ["-b".toList, "4".toList]) (by decide)
  have hgiven : batchGiven (getopt optstring false true (udpArgs ++ ["-b".toList, "4".toList])) = 4 := by
    decide
  rw [hgiven] at hfits hnarrow
  have hsent : bodies ((udpSender ⟨1, 4⟩ 0).outputs Buffer.clear [⟨some threeNodes, none⟩]) =
      [report threeNodes] := by
    have hgroups : groups (full 4) [] [threeNodes] = [[threeNodes]] := rfl
    rw [bodies_eq_groups ⟨1, 4⟩ 0 (by decide) _ _ Batches.empty (represents_clear _ rfl)]
    exact (congrArg (List.map _) hgroups).trans (congrArg ([·]) (List.flatMap_singleton report threeNodes))
  refine ⟨hsent, ?_⟩
  have hall : ∀ t ∈ records [⟨some threeNodes, none⟩], Narrow 4 t := by
    intro t ht
    rw [List.mem_singleton.mp ht]
    exact hnarrow (by decide) threeNodes threeNodes_exported
  refine hfits 0 [⟨some threeNodes, none⟩] hall (by decide) _ ?_
  change report threeNodes ∈ bodies ((udpSender ⟨1, 4⟩ 0).outputs Buffer.clear [⟨some threeNodes, none⟩])
  rw [hsent]
  exact List.mem_cons_self

/-- Without -b the first batch is lost, here after 250 packets over three nodes. -/
theorem default_batch_too_long :
    parseArguments false cleared udpArgs = .ok udpOptions ∧
      ∃ body ∈ bodies ((udpSender ⟨udpOptions.hostValid, udpOptions.batch⟩ 0).outputs Buffer.clear
        (List.replicate 250 ⟨some threeNodes, none⟩)), maxDatagram < body.length := by
  refine ⟨by decide, ?_⟩
  have hrecords : records (List.replicate 250 ⟨some threeNodes, none⟩) = List.replicate 250 threeNodes :=
    List.filterMap_replicate_of_some rfl
  have hfull : full udpOptions.batch (List.replicate 250 threeNodes) = true := by
    rw [full, recordLines_replicate]
    rfl
  obtain ⟨group, hgroup⟩ := List.exists_mem_of_ne_nil _
    (groups_ne_nil _ [] (List.replicate 250 threeNodes) (List.cons_ne_nil _ _) hfull)
  rw [bodies_eq_groups _ 0 (by decide) _ _ Batches.empty (represents_clear _ rfl), hrecords]
  refine ⟨group.flatMap report, List.mem_map_of_mem hgroup, ?_⟩
  rw [length_group]
  exact groupWidth_large _ _ _ group (by decide) hgroup

end IntPlatform.Exporter.DatagramSize
