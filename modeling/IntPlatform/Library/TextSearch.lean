import Mathlib.Data.List.Infix

namespace IntPlatform.Library.TextSearch

variable {α : Type}

def find [DecidableEq α] (pattern : List α) : List α → Option Nat
  | [] => if pattern = [] then some 0 else none
  | c :: text =>
      if pattern.isPrefixOf (c :: text) then some 0 else (find pattern text).map (· + 1)

def before (text : List α) : Nat → Option α
  | 0 => none
  | position + 1 => text[position]?

def insertAt (position : Nat) (new text : List α) : List α :=
  text.take position ++ (new ++ text.drop position)

section Find

variable [DecidableEq α]

theorem find_eq_none_iff (pattern text : List α) : find pattern text = none ↔ ¬pattern <:+: text := by
  induction text with
  | nil =>
      rw [find, List.infix_nil]
      split <;> simp_all
  | cons c text ih =>
      rw [find, List.infix_cons_iff, ← List.isPrefixOf_iff_prefix]
      split
      · next h => exact iff_of_false (Option.some_ne_none 0) fun hn => hn (Or.inl h)
      · next h => rw [Option.map_eq_none_iff, ih, not_or, and_iff_right h]

/-- The occurrence that find returns is one, and before it there is none. -/
theorem find_eq_some_iff (pattern text : List α) (n : Nat) :
    find pattern text = some n ↔
      n ≤ text.length ∧ pattern <+: text.drop n ∧ ∀ k < n, ¬pattern <+: text.drop k := by
  induction text generalizing n with
  | nil =>
      rw [find]
      split
      · next h =>
          subst h
          constructor
          · intro hn
            cases hn
            exact ⟨Nat.le_refl 0, List.nil_prefix, fun k hk => absurd hk (Nat.not_lt_zero k)⟩
          · rintro ⟨hn, -, -⟩
            exact congrArg some (Nat.le_zero.mp hn).symm
      · next h =>
          refine iff_of_false (Option.some_ne_none n).symm ?_
          rintro ⟨-, hp, -⟩
          rw [List.drop_nil] at hp
          exact h (List.prefix_nil.mp hp)
  | cons c text ih =>
      rw [find]
      split
      · next h =>
          have hp := List.isPrefixOf_iff_prefix.mp h
          constructor
          · intro hn
            cases hn
            exact ⟨Nat.zero_le _, hp, fun k hk => absurd hk (Nat.not_lt_zero k)⟩
          · rintro ⟨-, -, hfirst⟩
            cases n with
            | zero => rfl
            | succ n => exact absurd hp (hfirst 0 (Nat.succ_pos n))
      · next h =>
          have hp : ¬pattern <+: c :: text := mt List.isPrefixOf_iff_prefix.mpr h
          cases n with
          | zero => exact iff_of_false (by simp) fun hn => hp hn.2.1
          | succ n =>
              rw [Option.map_eq_some_iff]
              simp only [Nat.succ.injEq, exists_eq_right]
              rw [ih n, List.length_cons, Nat.succ_le_succ_iff, List.drop_succ_cons]
              refine and_congr_right fun _ => and_congr_right fun _ => ?_
              constructor
              · intro hfirst k hk
                cases k with
                | zero => exact hp
                | succ k => exact hfirst k (Nat.succ_lt_succ_iff.mp hk)
              · intro hfirst k hk
                exact hfirst (k + 1) (Nat.succ_lt_succ hk)

theorem find_char (c : α) (front back : List α) (h : c ∉ front) : find [c] (front ++ c :: back) = some front.length := by
  induction front with
  | nil => rw [List.nil_append, find, if_pos (by simp [List.isPrefixOf]), List.length_nil]
  | cons d front ih =>
      rw [List.mem_cons, not_or] at h
      rw [List.cons_append, find, if_neg (by simpa [List.isPrefixOf] using h.1), ih h.2, List.length_cons]
      rfl

theorem find_char_none (c : α) (text : List α) : find [c] text = none ↔ c ∉ text := by
  rw [find_eq_none_iff, List.singleton_infix_iff]

end Find

section Parts

variable (front new back : List α)

theorem insertAt_append : insertAt front.length new (front ++ back) = front ++ (new ++ back) := by
  rw [insertAt, List.take_left, List.drop_left]

theorem before_append (d : α) : before (front ++ d :: back) (front.length + 1) = some d := by
  rw [before, List.getElem?_append_right (Nat.le_refl _), Nat.sub_self, List.getElem?_cons_zero]

end Parts

end IntPlatform.Library.TextSearch
