import IntPlatform.Library.RoundRobin
import Mathlib.Data.List.Count

namespace IntPlatform.Library.Rotation

open Traces CircularIndex RoundRobin

variable {n : Nat} [NeZero n] {α : Type}

section Turns

/-- The places behind base, one after the other, as often as given. -/
def turns (base : Fin n) (count : Nat) : List (Fin n) :=
  (List.range count).map fun i => slot base (i + 1)

theorem turns_succ (base : Fin n) (count : Nat) :
    turns base (count + 1) = turns base count ++ [slot base (count + 1)] := by
  rw [turns, List.range_succ, List.map_append]
  rfl

theorem turns_length (base : Fin n) (count : Nat) : (turns base count).length = count := by
  rw [turns, List.length_map, List.length_range]

def ahead (k : Fin n) : Nat := (n - k) % n

theorem slot_eq_iff (k : Fin n) (i : Nat) : slot 0 i = k ↔ n ∣ i + ahead k := by
  have hk := k.isLt
  have hcancel : (i + ahead k) % n = (i + (n - k)) % n := Nat.add_mod_mod _ _ _
  have hback : (i + (n - k) + k) % n = i % n := by
    rw [Nat.add_assoc, Nat.sub_add_cancel (Nat.le_of_lt hk), Nat.add_mod_right]
  rw [Fin.ext_iff, Nat.dvd_iff_mod_eq_zero, hcancel]
  have hslot : (slot (0 : Fin n) i).val = i % n := congrArg (· % n) (Nat.zero_add i)
  rw [hslot]
  constructor
  · intro hi
    have hsum : (i + (n - k)) % n = (k + (n - k)) % n := by rw [← Nat.mod_add_mod, hi]
    rw [hsum, Nat.add_sub_cancel' (Nat.le_of_lt hk), Nat.mod_self]
  · intro hi
    rw [← hback, ← Nat.mod_add_mod, hi, Nat.zero_add, Nat.mod_eq_of_lt hk]

theorem count_turns (k : Fin n) (count : Nat) : (turns 0 count).count k = (count + ahead k) / n := by
  induction count with
  | zero =>
      rw [Nat.zero_add, Nat.div_eq_of_lt (show ahead k < n from Nat.mod_lt _ (Nat.pos_of_neZero n))]
      rfl
  | succ count ih =>
      rw [turns_succ, List.count_append, ih, Nat.add_right_comm, Nat.succ_div, List.count_singleton]
      by_cases h : slot 0 (count + 1) = k
      · have hdvd := (slot_eq_iff k (count + 1)).mp h
        rw [Nat.add_right_comm] at hdvd
        rw [if_pos hdvd, if_pos (beq_iff_eq.mpr h)]
      · have hdvd := mt (slot_eq_iff k (count + 1)).mpr h
        rw [Nat.add_right_comm] at hdvd
        rw [if_neg hdvd, if_neg (by simpa using h)]

theorem count_turns_le (j k : Fin n) (count : Nat) : (turns 0 count).count j ≤ (turns 0 count).count k + 1 := by
  rw [count_turns, count_turns, ← Nat.add_div_right _ (Nat.pos_of_neZero n)]
  apply Nat.div_le_div_right
  have hj : ahead j < n := Nat.mod_lt _ (Nat.pos_of_neZero n)
  omega

end Turns

def Event.attempt : Event n α → Option (Fin n)
  | .refused k _ => some k
  | .accepted k _ => some k
  | _ => none

def attempts (es : List (Event n α)) : List (Fin n) := es.filterMap Event.attempt

section Attempts

variable {cap : Nat} {es : List (Event n α)} {s t : Distributor n α}

theorem attempts_path (h : (distribution n cap α).Path s es t) :
    attempts es = turns s.cursor (attempts es).length ∧ t.cursor = slot s.cursor (attempts es).length := by
  refine Automaton.Path.invariant (fun es t => attempts es = turns s.cursor (attempts es).length ∧
    t.cursor = slot s.cursor (attempts es).length) h ?_ ?_
  · exact ⟨rfl, (slot_zero s.cursor).symm⟩
  · rintro es t o u ⟨ha, hc⟩ hs
    have hkeep (hnone : attempts o.toList = []) (hcursor : u.cursor = t.cursor) :
        attempts (es ++ o.toList) = turns s.cursor (attempts (es ++ o.toList)).length ∧
          u.cursor = slot s.cursor (attempts (es ++ o.toList)).length := by
      rw [attempts, List.filterMap_append, ← attempts, ← attempts, hnone, List.append_nil, hcursor]
      exact ⟨ha, hc⟩
    have hnext (k : Fin n) (hone : attempts o.toList = [k]) (hk : k = slot t.cursor 1)
        (hcursor : u.cursor = k) :
        attempts (es ++ o.toList) = turns s.cursor (attempts (es ++ o.toList)).length ∧
          u.cursor = slot s.cursor (attempts (es ++ o.toList)).length := by
      have hslot : k = slot s.cursor ((attempts es).length + 1) := by rw [hk, hc, slot_slot]
      rw [attempts, List.filterMap_append, ← attempts, ← attempts, hone, List.length_append,
        List.length_singleton, turns_succ, ← ha, ← hslot]
      exact ⟨rfl, hcursor⟩
    cases hs with
    | offer v _ hp => exact hkeep rfl rfl
    | refuse v i _ hp => exact hnext _ rfl rfl rfl
    | accept v i _ hp => exact hnext _ rfl rfl rfl
    | reject v _ hp => exact hkeep rfl rfl
    | take k v q _ hq => exact hkeep rfl rfl

omit [NeZero n] in
/-- Without refusals the attempts are the elements that were accepted. -/
theorem count_attempts (es : List (Event n α)) (h : refusals es = []) (k : Fin n) :
    (attempts es).count k = (accepts k es).length := by
  induction es with
  | nil => rfl
  | cons e es ih =>
      have hsplit : e :: es = [e] ++ es := rfl
      rw [hsplit, refusals_append, List.append_eq_nil_iff] at h
      have haccepts : accepts k ([e] ++ es) = accepts k [e] ++ accepts k es :=
        settledAs_append [e] es (some k)
      rw [hsplit, attempts, List.filterMap_append, ← attempts, ← attempts, List.count_append, ih h.2,
        haccepts, List.length_append]
      congr 1
      cases e with
      | refused j v => cases h.1
      | accepted j v =>
          by_cases hj : j = k
          · simp [attempts, accepts, settledAs, Event.attempt, Event.outcome, hj]
          · simp [attempts, accepts, settledAs, Event.attempt, Event.outcome, hj]
      | offered v | rejected v | taken j v => rfl

end Attempts

end IntPlatform.Library.Rotation
