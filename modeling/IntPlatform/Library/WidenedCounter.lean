import Mathlib.Data.BitVec
import Mathlib.Tactic.Common

namespace IntPlatform.Library.WidenedCounter

section Gaps

variable {v : Nat}

def gapsFrom (prev : BitVec v) : List (BitVec v) → List (BitVec v)
  | [] => []
  | c :: cs => (c - prev - 1) :: gapsFrom c cs

def gaps : List (BitVec v) → List (BitVec v)
  | [] => []
  | c :: cs => gapsFrom c cs

end Gaps

variable {w v : Nat} (k : BitVec w)

/-- With k added the count runs over its width. -/
def Wraps (c : BitVec w) : Prop := 2 ^ w ≤ c.toNat + k.toNat

instance (c : BitVec w) : Decidable (Wraps k c) := inferInstanceAs (Decidable (_ ≤ _))

/-- What a count that wraps loses, seen with more bits. -/
def carry (v : Nat) (c : BitVec w) : BitVec v := if Wraps k c then BitVec.twoPow v w else 0

section Wide

variable (hwide : w < v)

include hwide

theorem setWidth_add (c : BitVec w) :
    (c + k).setWidth v + carry k v c = c.setWidth v + k.setWidth v := by
  have hpow : 2 * 2 ^ w ≤ 2 ^ v := by
    rw [← Nat.pow_succ']
    exact Nat.pow_le_pow_right (by decide) hwide
  have hc := c.isLt
  have hk := k.isLt
  have hle : w ≤ v := Nat.le_of_lt hwide
  apply BitVec.eq_of_toNat_eq
  rw [BitVec.toNat_add, BitVec.toNat_add, BitVec.toNat_setWidth_of_le hle, BitVec.toNat_setWidth_of_le hle,
    BitVec.toNat_setWidth_of_le hle, BitVec.toNat_add, carry]
  by_cases hw : Wraps k c
  · have hmod : (c.toNat + k.toNat) % 2 ^ w = c.toNat + k.toNat - 2 ^ w := by
      rw [Nat.mod_eq_sub_mod hw]
      exact Nat.mod_eq_of_lt (by omega)
    rw [if_pos hw, BitVec.toNat_twoPow_of_lt hwide, hmod, Nat.sub_add_cancel hw]
  · have hlt : c.toNat + k.toNat < 2 ^ w := Nat.lt_of_not_le hw
    rw [if_neg hw, Nat.mod_eq_of_lt hlt]
    rfl

theorem carry_inj (c p : BitVec w) : carry k v c = carry k v p ↔ (Wraps k c ↔ Wraps k p) := by
  have hne : BitVec.twoPow v w ≠ 0 := by
    intro h
    have htoNat := congrArg BitVec.toNat h
    rw [BitVec.toNat_twoPow_of_lt hwide] at htoNat
    exact absurd htoNat (Nat.ne_of_gt (Nat.two_pow_pos w))
  rw [carry, carry]
  by_cases hc : Wraps k c
  · by_cases hp : Wraps k p
    · rw [if_pos hc, if_pos hp]
      exact iff_of_true rfl (iff_of_true hc hp)
    · rw [if_pos hc, if_neg hp]
      exact iff_of_false hne fun h => hp (h.mp hc)
  · by_cases hp : Wraps k p
    · rw [if_neg hc, if_pos hp]
      exact iff_of_false hne.symm fun h => hc (h.mpr hp)
    · rw [if_neg hc, if_neg hp]
      exact iff_of_true rfl (iff_of_false hc hp)

theorem gap_iff (c p : BitVec w) :
    (c + k).setWidth v - (p + k).setWidth v - 1 = c.setWidth v - p.setWidth v - 1 ↔
      (Wraps k c ↔ Wraps k p) := by
  have hc := setWidth_add k hwide c
  have hp := setWidth_add k hwide p
  rw [← carry_inj k hwide c p]
  constructor
  · intro h
    grind
  · intro h
    grind

theorem gapsFrom_iff (cs : List (BitVec w)) (p : BitVec w) :
    gapsFrom ((p + k).setWidth v) (cs.map fun c => (c + k).setWidth v) =
        gapsFrom (p.setWidth v) (cs.map fun c => c.setWidth v) ↔
      ∀ c ∈ cs, (Wraps k c ↔ Wraps k p) := by
  induction cs generalizing p with
  | nil => exact iff_of_true rfl (fun c hc => by cases hc)
  | cons c cs ih =>
      rw [List.map_cons, List.map_cons, gapsFrom, gapsFrom, List.cons.injEq, gap_iff k hwide, ih c,
        List.forall_mem_cons]
      apply and_congr_right
      intro hc
      simp only [hc]

theorem gaps_iff (cs : List (BitVec w)) :
    gaps (cs.map fun c => (c + k).setWidth v) = gaps (cs.map fun c => c.setWidth v) ↔
      (∀ c ∈ cs, ¬ Wraps k c) ∨ ∀ c ∈ cs, Wraps k c := by
  cases cs with
  | nil => exact iff_of_true rfl (Or.inl fun c hc => by cases hc)
  | cons p cs =>
      rw [List.map_cons, List.map_cons, gaps, gaps, gapsFrom_iff k hwide, List.forall_mem_cons,
        List.forall_mem_cons]
      by_cases hp : Wraps k p
      · simp only [hp, iff_true, not_true_eq_false, false_and, true_and, false_or]
      · simp only [hp, iff_false, not_false_eq_true, true_and, false_and, or_false]

end Wide

end IntPlatform.Library.WidenedCounter
