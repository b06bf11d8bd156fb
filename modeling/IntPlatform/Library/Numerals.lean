import Mathlib.Data.Nat.Log
import Mathlib.Tactic.IntervalCases
import Mathlib.Tactic.Common

namespace IntPlatform.Library.Numerals

def digit (c : Char) : Option Nat :=
  if '0' ≤ c ∧ c ≤ '9' then some (c.toNat - 48)
  else if 'a' ≤ c ∧ c ≤ 'f' then some (c.toNat - 87)
  else if 'A' ≤ c ∧ c ≤ 'F' then some (c.toNat - 55)
  else none

def shift (base v : Nat) (c : Char) : Option Nat :=
  (digit c).bind fun d => if d < base then some (v * base + d) else none

def numeral (base : Nat) (text : List Char) : Option Nat :=
  if text = [] then none else text.foldlM (shift base) 0

theorem digit_digitChar (d : Nat) (h : d < 16) : digit (Nat.digitChar d) = some d := by
  interval_cases d <;> rfl

theorem shift_digitChar (base v d : Nat) (hd : d < 16) :
    shift base v (Nat.digitChar d) = if d < base then some (v * base + d) else none := by
  rw [shift, digit_digitChar d hd, Option.bind_some]

theorem numeral_concat (base : Nat) (text : List Char) (c : Char) (h : text ≠ []) :
    numeral base (text ++ [c]) = (numeral base text).bind fun v => shift base v c := by
  have hne : text ++ [c] ≠ [] := List.append_ne_nil_of_right_ne_nil text (List.cons_ne_nil c [])
  rw [numeral, numeral, if_neg hne, if_neg h, List.foldlM_append]
  cases text.foldlM (shift base) 0 with
  | none => rfl
  | some v =>
      change (shift base v c >>= pure) = _
      rw [bind_pure]
      rfl

section Written

variable (base base' : Nat) (hone : 1 < base') (hmax : base' ≤ 16)

include hone hmax

theorem numeral_toDigits_eq (n : Nat) :
    numeral base (Nat.toDigits base' n) =
      if n < base' then (if n < base then some n else none)
      else (numeral base (Nat.toDigits base' (n / base'))).bind fun v =>
        if n % base' < base then some (v * base + n % base') else none := by
  rw [Nat.toDigits_eq_if hone]
  by_cases hn : n < base'
  · rw [if_pos hn, if_pos hn]
    change shift base 0 (Nat.digitChar n) >>= pure = _
    rw [bind_pure, shift_digitChar base 0 n (by omega), Nat.zero_mul, Nat.zero_add]
  · have hmod : n % base' < 16 := Nat.lt_of_lt_of_le (Nat.mod_lt n (by omega)) hmax
    rw [if_neg hn, if_neg hn, numeral_concat _ _ _ Nat.toDigits_ne_nil]
    simp only [shift_digitChar base _ _ hmod]

theorem numeral_le (hle : base ≤ base') (n v : Nat) (h : numeral base (Nat.toDigits base' n) = some v) :
    v ≤ n := by
  induction n using Nat.strongRecOn generalizing v with
  | ind n ih =>
      rw [numeral_toDigits_eq base base' hone hmax] at h
      by_cases hn : n < base'
      · rw [if_pos hn] at h
        split at h
        · exact Nat.le_of_eq (Option.some.inj h).symm
        · cases h
      · rw [if_neg hn] at h
        obtain ⟨w, hw, hv⟩ := Option.bind_eq_some_iff.mp h
        split at hv
        · have hle' := ih (n / base') (Nat.div_lt_self (by omega) hone) w hw
          have hmul := Nat.mul_le_mul hle' hle
          have hdiv := Nat.div_add_mod' n base'
          have := Option.some.inj hv
          omega
        · cases hv

/-- Read in a smaller base than it was written in, a number keeps its value
only if it has one digit. -/
theorem numeral_eq_iff (hlt : base < base') (n : Nat) :
    numeral base (Nat.toDigits base' n) = some n ↔ n < base := by
  rw [numeral_toDigits_eq base base' hone hmax]
  by_cases hn : n < base'
  · rw [if_pos hn]
    by_cases hb : n < base
    · rw [if_pos hb]
      exact iff_of_true rfl hb
    · rw [if_neg hb]
      exact iff_of_false (by simp) hb
  · rw [if_neg hn]
    refine iff_of_false ?_ (by omega)
    intro h
    obtain ⟨w, hw, hv⟩ := Option.bind_eq_some_iff.mp h
    split at hv
    · have hle := numeral_le base base' hone hmax (Nat.le_of_lt hlt) (n / base') w hw
      have hpos : 0 < n / base' := Nat.div_pos (by omega) (by omega)
      have hmul : w * base ≤ n / base' * base := Nat.mul_le_mul_right base hle
      have hstrict : n / base' * base < n / base' * base' := Nat.mul_lt_mul_of_pos_left hlt hpos
      have hdiv := Nat.div_add_mod' n base'
      have := Option.some.inj hv
      omega
    · cases hv

theorem toDigits_head (n : Nat) (h : 0 < n) : ∃ c text, Nat.toDigits base' n = c :: text ∧ c ≠ '0' := by
  induction n using Nat.strongRecOn with
  | ind n ih =>
      rw [Nat.toDigits_eq_if hone]
      by_cases hn : n < base'
      · rw [if_pos hn]
        refine ⟨_, _, rfl, ?_⟩
        have hd : ∀ d < 16, 0 < d → Nat.digitChar d ≠ '0' := by decide
        exact hd n (by omega) h
      · rw [if_neg hn]
        obtain ⟨c, text, ht, hc⟩ := ih (n / base') (Nat.div_lt_self h hone)
          (Nat.div_pos (by omega) (by omega))
        exact ⟨c, text ++ [Nat.digitChar (n % base')], by rw [ht, List.cons_append], hc⟩

theorem numeral_toDigits (n : Nat) : numeral base' (Nat.toDigits base' n) = some n := by
  induction n using Nat.strongRecOn with
  | ind n ih =>
      rw [numeral_toDigits_eq base' base' hone hmax]
      by_cases hn : n < base'
      · rw [if_pos hn, if_pos hn]
      · rw [if_neg hn, ih _ (Nat.div_lt_self (by omega) hone), Option.bind_some,
          if_pos (Nat.mod_lt n (by omega)), Nat.div_add_mod']

theorem toDigits_ne_cons (n : Nat) (c : Char) (hc : digit c = none) (text : List Char) :
    Nat.toDigits base' n ≠ c :: text := by
  intro h
  have hn := numeral_toDigits base' hone hmax n
  rw [h, numeral, if_neg (List.cons_ne_nil c text), List.foldlM_cons, shift, hc] at hn
  cases hn

theorem notMem_toDigits (n : Nat) (c : Char) (hc : digit c = none) : c ∉ Nat.toDigits base' n := by
  induction n using Nat.strongRecOn with
  | ind n ih =>
      have hne (d : Nat) (hd : d < 16) : c ≠ Nat.digitChar d := by
        rintro rfl
        rw [digit_digitChar d hd] at hc
        cases hc
      rw [Nat.toDigits_eq_if hone]
      by_cases hn : n < base'
      · rw [if_pos hn, List.mem_singleton]
        exact hne n (by omega)
      · rw [if_neg hn, List.mem_append, List.mem_singleton, not_or]
        exact ⟨ih _ (Nat.div_lt_self (by omega) hone),
          hne _ (Nat.lt_of_lt_of_le (Nat.mod_lt n (by omega)) hmax)⟩

end Written

theorem length_toDigits (base : Nat) (h : 1 < base) (n : Nat) :
    (Nat.toDigits base n).length = Nat.log base n + 1 := by
  apply Nat.le_antisymm
  · rw [Nat.length_toDigits_le_iff h (Nat.succ_pos _)]
    exact Nat.lt_pow_succ_log_self h n
  · have hlt : n < base ^ (Nat.toDigits base n).length :=
      (Nat.length_toDigits_le_iff h Nat.length_toDigits_pos).mp (Nat.le_refl _)
    exact Nat.log_lt_of_lt_pow' (Nat.ne_of_gt Nat.length_toDigits_pos) hlt

/-- A decimal number with an optional sign in front. -/
def integer : List Char → Option Int
  | '-' :: text => (numeral 10 text).map fun n => -(n : Int)
  | text => (numeral 10 text).map fun n => (n : Int)

theorem integer_minus (n : Nat) : integer ('-' :: Nat.toDigits 10 n) = some (-(n : Int)) := by
  rw [integer, numeral_toDigits 10 (by decide) (by decide)]
  rfl

theorem integer_toDigits (n : Nat) : integer (Nat.toDigits 10 n) = some (n : Int) := by
  rw [integer, numeral_toDigits 10 (by decide) (by decide)]
  · rfl
  · intro text h
    exact toDigits_ne_cons 10 (by decide) (by decide) n '-' rfl text h

end IntPlatform.Library.Numerals
