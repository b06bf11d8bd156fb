import Mathlib.Logic.Function.Basic
import Mathlib.Tactic.Common

namespace IntPlatform.Library.SlotTable

variable {n : Nat} {α : Type}

def entry [Inhabited α] (t : Fin n → α) (i : Nat) : α := if h : i < n then t ⟨i, h⟩ else default

def overwrite (t : Fin n → α) (i : Nat) (xs : List α) : Fin n → α :=
  fun k => if k < i then t k else xs[k - i]?.getD (t k)

@[simp] theorem overwrite_nil (t : Fin n → α) (i : Nat) : overwrite t i [] = t := by
  funext k
  simp [overwrite]

theorem overwrite_cons (t : Fin n → α) (i : Nat) (h : i < n) (x : α) (xs : List α) :
    overwrite (Function.update t ⟨i, h⟩ x) (i + 1) xs = overwrite t i (x :: xs) := by
  funext k
  simp only [overwrite, Function.update_apply, Fin.ext_iff]
  by_cases hk : (k : Nat) < i
  · rw [if_pos (by omega), if_neg (by omega), if_pos hk]
  · rw [if_neg hk]
    by_cases he : (k : Nat) = i
    · rw [if_pos (by omega), if_pos he, he, Nat.sub_self]
      rfl
    · have hs : (k : Nat) - i = (k - (i + 1)) + 1 := by omega
      rw [if_neg (by omega), if_neg he, hs]
      rfl

theorem overwrite_append (t : Fin n → α) (i : Nat) (xs ys : List α) :
    overwrite (overwrite t i xs) (i + xs.length) ys = overwrite t i (xs ++ ys) := by
  funext k
  simp only [overwrite]
  by_cases hk : (k : Nat) < i
  · rw [if_pos (by omega), if_pos hk, if_pos hk]
  · rw [if_neg hk, if_neg hk]
    by_cases hx : (k : Nat) < i + xs.length
    · have hl : (k : Nat) - i < xs.length := by omega
      rw [if_pos hx, List.getElem?_append_left hl]
    · have hl : xs.length ≤ (k : Nat) - i := by omega
      rw [if_neg hx, List.getElem?_append_right hl, List.getElem?_eq_none hl, Nat.sub_sub]
      rfl

theorem entry_overwrite [Inhabited α] (t : Fin n → α) (xs : List α) (i : Nat) (h : xs.length ≤ n) :
    entry (overwrite t 0 xs) i = xs[i]?.getD (entry t i) := by
  rw [entry, entry]
  split
  · rfl
  · next hi =>
    rw [List.getElem?_eq_none (by omega)]
    rfl

theorem entry_overwrite_of_le [Inhabited α] (t : Fin n → α) (i j : Nat) (xs : List α)
    (h : i + xs.length ≤ j) : entry (overwrite t i xs) j = entry t j := by
  rw [entry, entry]
  split
  · simp only [overwrite]
    rw [if_neg (by omega), List.getElem?_eq_none (by omega)]
    rfl
  · rfl

theorem entry_default [Inhabited α] (i : Nat) : entry (fun _ : Fin n => (default : α)) i = default := by
  rw [entry]
  split
  · rfl
  · rfl

theorem getLast_filterMap_concat {β : Type} (f : β → Option α) (l : List β) (b : β) (d : α) :
    ((l ++ [b]).filterMap f).getLast?.getD d = (f b).getD ((l.filterMap f).getLast?.getD d) := by
  rw [List.filterMap_append, List.filterMap_cons]
  cases f b with
  | none => rw [List.filterMap_nil, List.append_nil, Option.getD_none]
  | some x => rw [List.filterMap_nil, List.getLast?_concat, Option.getD_some, Option.getD_some]

end IntPlatform.Library.SlotTable
