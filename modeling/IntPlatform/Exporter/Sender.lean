import Mathlib.Algebra.Group.Nat.Defs
import IntPlatform.Library.Batching
import IntPlatform.Exporter.AddReport

namespace IntPlatform.Exporter.Sender

open Library.Batching Collector.Records AddReport

structure SenderOptions where
  hostValid : BitVec 8
  batch : BitVec 32

structure Pop where
  telemetric : Option TelemetricHdr
  error : Option (List Char)

structure Reaction where
  sent : Option (List Char)
  cerr : List Char

structure Buffer where
  data : List Char
  it : BitVec 32

def Buffer.clear : Buffer := ⟨[], 0⟩

def Buffer.append (s : Buffer) (telemetric : TelemetricHdr) : Buffer :=
  let (n, data) := addReport telemetric s.data
  ⟨data, s.it + n⟩

def records (pops : List Pop) : List TelemetricHdr := pops.filterMap Pop.telemetric

def bodies (reactions : List Reaction) : List (List Char) := reactions.filterMap Reaction.sent

def recordLines : List TelemetricHdr → Nat
  | [] => 0
  | t :: ts => 1 + t.nodeMeta.length + recordLines ts

theorem recordLines_concat (ts : List TelemetricHdr) (t : TelemetricHdr) :
    recordLines (ts ++ [t]) = recordLines ts + (1 + t.nodeMeta.length) := by
  induction ts with
  | nil => exact Nat.add_comm _ _
  | cons u ts ih =>
      rw [List.cons_append, recordLines, recordLines, ih]
      exact (Nat.add_assoc _ _ _).symm

theorem recordLines_sublist {ts us : List TelemetricHdr} (h : ts.Sublist us) :
    recordLines ts ≤ recordLines us := by
  induction h with
  | slnil => exact Nat.le_refl _
  | cons u _ ih => exact Nat.le_trans ih (Nat.le_add_left _ _)
  | cons_cons t _ ih => exact Nat.add_le_add_left ih _

theorem recordLines_replicate (n : Nat) (t : TelemetricHdr) :
    recordLines (List.replicate n t) = n * (1 + t.nodeMeta.length) := by
  induction n with
  | zero => exact (Nat.zero_mul _).symm
  | succ n ih => rw [List.replicate_succ', recordLines_concat, ih, Nat.succ_mul]

theorem records_concat (pops : List Pop) (p : Pop) :
    records (pops ++ [p]) = records pops ++ p.telemetric.toList := by
  rw [records, List.filterMap_append, List.filterMap_cons]
  cases p.telemetric <;> rfl

theorem bodies_concat (rs : List Reaction) (r : Reaction) :
    bodies (rs ++ [r]) = bodies rs ++ r.sent.toList := by
  rw [bodies, List.filterMap_append, List.filterMap_cons]
  cases r.sent <;> rfl

theorem records_cons (p : Pop) (pops : List Pop) :
    records (p :: pops) = p.telemetric.toList ++ records pops := by
  rw [records, List.filterMap_cons]
  cases p.telemetric <;> rfl

theorem bodies_cons (r : Reaction) (rs : List Reaction) :
    bodies (r :: rs) = r.sent.toList ++ bodies rs := by
  rw [bodies, List.filterMap_cons]
  cases r.sent <;> rfl

theorem append_data (s : Buffer) (t : TelemetricHdr) : (s.append t).data = s.data ++ report t :=
  congrArg Prod.snd (addReport_eq t s.data)

theorem append_it (s : Buffer) (t : TelemetricHdr) :
    (s.append t).it = s.it + BitVec.ofNat 32 (1 + t.nodeMeta.length) :=
  congrArg (s.it + Prod.fst ·) (addReport_eq t s.data)

structure Represents (s : Buffer) (b : Batches TelemetricHdr) : Prop where
  data : s.data = b.rest report
  it : s.it = BitVec.ofNat 32 (recordLines b.pending)

theorem represents_clear (b : Batches TelemetricHdr) (h : b.pending = []) :
    Represents Buffer.clear b := by
  refine ⟨?_, ?_⟩
  · rw [Batches.rest, h]
    rfl
  · rw [h]
    rfl

theorem Represents.append {s : Buffer} {b : Batches TelemetricHdr} (h : Represents s b)
    (t : TelemetricHdr) : Represents (s.append t) (b.add t) := by
  refine ⟨?_, ?_⟩
  · rw [append_data, h.data, Batches.rest, Batches.rest, Batches.add, List.flatMap_append,
      List.flatMap_singleton]
  · rw [append_it, h.it, Batches.add, recordLines_concat, ← BitVec.ofNat_add]

theorem Represents.it_toNat {s : Buffer} {b : Batches TelemetricHdr} (h : Represents s b)
    (hlt : recordLines b.pending < 2 ^ 32) : s.it.toNat = recordLines b.pending := by
  rw [h.it, BitVec.toNat_ofNat, Nat.mod_eq_of_lt hlt]

theorem lines_flatMap_report (ts : List TelemetricHdr) (h : ∀ t ∈ ts, Exported t) :
    lines (ts.flatMap report) = recordLines ts := by
  induction ts with
  | nil => rfl
  | cons t ts ih =>
      have hts := ih fun t ht => h t (List.mem_cons_of_mem _ ht)
      rw [List.flatMap_cons, lines_append, lines_report t (h t List.mem_cons_self), hts]
      rfl

theorem Represents.lines {s : Buffer} {b : Batches TelemetricHdr} (h : Represents s b)
    (hb : ∀ t ∈ b.items, Exported t) : AddReport.lines s.data = recordLines b.pending := by
  rw [h.data, Batches.rest]
  exact lines_flatMap_report _ fun t ht => hb t (List.mem_append_right _ ht)

theorem lines_append_data (s : Buffer) (t : TelemetricHdr) (ht : Exported t) :
    lines (s.append t).data = lines s.data + (1 + t.nodeMeta.length) := by
  rw [append_data, lines_append, lines_report t ht]

theorem report_ne_nil (t : TelemetricHdr) : report t ≠ [] := by
  apply List.append_ne_nil_of_left_ne_nil
  exact List.append_ne_nil_of_right_ne_nil _ (by decide)

theorem Represents.data_eq_nil {s : Buffer} {b : Batches TelemetricHdr} (h : Represents s b) :
    s.data = [] ↔ b.pending = [] := by
  rw [h.data, Batches.rest, List.flatMap_eq_nil_iff]
  constructor
  · intro hall
    by_contra hne
    obtain ⟨t, ht⟩ := List.exists_mem_of_ne_nil _ hne
    exact report_ne_nil t (hall t ht)
  · intro hnil t ht
    rw [hnil] at ht
    cases ht

def oneHop : TelemetricHdr :=
  { (default : TelemetricHdr) with
    srcIp := inetNtop 0x0100000a
    dstIp := inetNtop 0x0200000a
    nodeMeta := [default, default] }

theorem oneHop_exported : Exported oneHop := ⟨⟨_, rfl⟩, ⟨_, rfl⟩, by decide⟩

end IntPlatform.Exporter.Sender
