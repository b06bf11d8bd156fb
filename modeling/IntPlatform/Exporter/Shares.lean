import IntPlatform.Library.Rotation
import IntPlatform.Exporter.Conservation

namespace IntPlatform.Exporter.Shares

open Library.Traces Library.CircularIndex Library.RoundRobin Library.Rotation
open Collector.Records RingBuffer SendData Conservation

/-- The attempts to push go over the rings in turn, from one call of sendData to
the next, and also past the rings that refuse. No ring has more than its share. -/
theorem exporter_shares (size : Nat) [NeZero size] (opt : Options) [NeZero opt.rawBuffer.toNat]
    (T : Type) (es : List (ExportEvent opt T)) (s : Process size opt T)
    (h : (exporter size opt T).Run es s) :
    attempts es = turns 0 (attempts es).length ∧
      (pendingRecord s.call = none → s.rrIndex.toNat = (attempts es).length % opt.rawBuffer.toNat) ∧
      (∀ k, (attempts es).count k = ((attempts es).length + ahead k) / opt.rawBuffer.toNat) ∧
      (∀ j k, (attempts es).count j ≤ (attempts es).count k + 1) ∧
      (refusals es = [] → ∀ j k, (accepts j es).length ≤ (accepts k es).length + 1) := by
  obtain ⟨s₀, hs, hpath⟩ := h
  have hm : Matches s₀ ⟨fun _ => [], 0, none⟩ := by
    obtain ⟨hempty, hrr, hcall, -, -⟩ := hs
    refine ⟨fun k => represents_empty _ (hempty k), ?_⟩
    rw [hcall]
    refine ⟨rfl, ?_, fun k => (hempty k).2.2.1⟩
    rw [hrr]
    rfl
  obtain ⟨d, hd, hmd⟩ := exporter_refines.path hm hpath
  obtain ⟨hturns, hcursor⟩ := attempts_path hd
  have hcount (k : Fin opt.rawBuffer.toNat) : (attempts es).count k =
      ((attempts es).length + ahead k) / opt.rawBuffer.toNat := by
    rw [hturns, count_turns, turns_length]
  have hshare (j k : Fin opt.rawBuffer.toNat) : (attempts es).count j ≤ (attempts es).count k + 1 := by
    rw [hturns]
    exact count_turns_le j k _
  refine ⟨hturns, ?_, hcount, hshare, ?_⟩
  · intro hcall
    have hidle : d.pending = none := Option.map_eq_none_iff.mp ((matches_pending hmd).trans hcall)
    rw [matches_cursor hmd hidle, hcursor]
    exact congrArg (· % opt.rawBuffer.toNat) (Nat.zero_add _)
  · intro hnone j k
    rw [← count_attempts es hnone, ← count_attempts es hnone]
    exact hshare j k

def twoRings : Options := ⟨1, 0, 1, 2⟩

instance : NeZero twoRings.rawBuffer.toNat := ⟨by decide⟩

def twoSlots : Nat := 2

instance : NeZero twoSlots := ⟨by decide⟩

def twoRingsProcess : Process twoSlots twoRings Nat := ⟨fun _ => Ring.start fun _ => 0, 0, .outside, 0, 0⟩

theorem exporter_shares_sample : ∃ s, (exporter twoSlots twoRings Nat).Run
      [.offered 7, .accepted 1 7, .offered 8, .accepted 0 8] s ∧
    attempts ([.offered 7, .accepted 1 7, .offered 8, .accepted 0 8] : List (ExportEvent twoRings Nat)) =
      turns 0 2 := by
  have hrun : ∃ s, runMoves (List.replicate 7 (.inl 7) ++ List.replicate 7 (.inl 8)) twoRingsProcess =
      some ([.offered 7, .accepted 1 7, .offered 8, .accepted 0 8], s) := ⟨_, rfl⟩
  obtain ⟨s, hs⟩ := hrun
  have h : (exporter twoSlots twoRings Nat).Run _ s :=
    ⟨twoRingsProcess, ⟨fun _ => ⟨rfl, rfl, rfl, rfl⟩, rfl, rfl, rfl, rfl⟩, runMoves_path _ _ _ _ hs⟩
  exact ⟨s, h, (exporter_shares twoSlots twoRings Nat _ s h).1⟩

end IntPlatform.Exporter.Shares
