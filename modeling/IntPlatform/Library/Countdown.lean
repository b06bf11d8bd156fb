import Mathlib.Data.BitVec
import Mathlib.Tactic.Ring
import Mathlib.Logic.Function.Iterate

namespace IntPlatform.Library.Countdown

variable {w : Nat}

def step (stop x : BitVec w) : BitVec w := if x = stop then x else x - 1

def distance (stop x : BitVec w) : Nat := (x - stop).toNat

theorem distance_eq_zero {stop x : BitVec w} : distance stop x = 0 ↔ x = stop := by
  rw [distance, ← sub_eq_zero (a := x)]
  constructor
  · intro h
    exact BitVec.eq_of_toNat_eq h
  · intro h
    rw [h]
    rfl

theorem distance_step (stop x : BitVec w) : distance stop (step stop x) = distance stop x - 1 := by
  rw [step]
  split
  · next h => rw [distance_eq_zero.mpr h]
  · next h =>
    have hd : (x - stop).toNat ≠ 0 := fun h0 => h (distance_eq_zero.mp h0)
    have hw : 0 < w := by
      by_contra hw
      obtain rfl : w = 0 := by omega
      exact hd (by omega)
    have h1 : (1 : BitVec w).toNat = 1 := BitVec.toNat_one hw
    have hc : x - 1 - stop = x - stop - 1 := sub_right_comm x 1 stop
    rw [distance, distance, hc, BitVec.toNat_sub_of_le, h1]
    rw [BitVec.le_def, h1]
    omega

theorem distance_iterate (stop x : BitVec w) (k : Nat) :
    distance stop ((step stop)^[k] x) = distance stop x - k := by
  induction k with
  | zero => rfl
  | succ k ih =>
      rw [Function.iterate_succ_apply', distance_step, ih]
      omega

theorem iterate_eq_stop (stop x : BitVec w) (k : Nat) :
    (step stop)^[k] x = stop ↔ distance stop x ≤ k := by
  rw [← distance_eq_zero, distance_iterate]
  omega

theorem stop_add_distance (stop x : BitVec w) : stop + BitVec.ofNat w (distance stop x) = x := by
  rw [distance, BitVec.ofNat_toNat, BitVec.setWidth_eq, add_sub_cancel]

theorem iterate_eq (stop x : BitVec w) (k : Nat) :
    (step stop)^[k] x = x - BitVec.ofNat w (min k (distance stop x)) := by
  have hk := stop_add_distance stop ((step stop)^[k] x)
  rw [distance_iterate] at hk
  rw [eq_sub_iff_add_eq, ← hk, add_assoc, ← BitVec.ofNat_add]
  have hs : distance stop x - k + min k (distance stop x) = distance stop x := by omega
  rw [hs, stop_add_distance]

end IntPlatform.Library.Countdown
