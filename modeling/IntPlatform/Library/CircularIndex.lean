import Mathlib.Data.Fin.Basic
import Mathlib.Data.Nat.ModEq

namespace IntPlatform.Library.CircularIndex

variable {size : Nat} [NeZero size]

def slot (base : Fin size) (i : Nat) : Fin size := Fin.ofNat size (base + i)

theorem slot_zero (base : Fin size) : slot base 0 = base := by
  apply Fin.ext
  exact Nat.mod_eq_of_lt base.isLt

theorem slot_slot (base : Fin size) (i j : Nat) : slot (slot base i) j = slot base (i + j) := by
  apply Fin.ext
  change ((base + i) % size + j) % size = (base + (i + j)) % size
  rw [Nat.mod_add_mod, Nat.add_assoc]

theorem slot_injective (base : Fin size) (i j : Nat) (hi : i < size) (hj : j < size)
    (h : slot base i = slot base j) : i = j := by
  have hm : (base + i) % size = (base + j) % size := congrArg Fin.val h
  exact (Nat.ModEq.add_left_cancel' base.val hm).eq_of_lt_of_lt hi hj

theorem slot_size (base : Fin size) : slot base size = base := by
  apply Fin.ext
  change (base + size) % size = base
  rw [Nat.add_mod_right, Nat.mod_eq_of_lt base.isLt]

theorem slot_eq_base (base : Fin size) (i : Nat) (h : i < size) :
    slot base (i + 1) = base ↔ i + 1 = size := by
  constructor
  · intro he
    by_contra hne
    have hi := slot_injective base (i + 1) 0 (by omega) (by omega) (he.trans (slot_zero base).symm)
    omega
  · intro he
    rw [he, slot_size]

end IntPlatform.Library.CircularIndex
