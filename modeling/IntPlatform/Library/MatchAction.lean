import Mathlib.Data.List.Basic

namespace IntPlatform.Library.MatchAction

/-- A match-action table with exact keys, filled by the control plane. Without
a default action a miss does nothing. -/
structure Table (κ α : Type) where
  entries : List (κ × α)
  defaultAction : Option α
deriving Repr

namespace Table

variable {κ α σ : Type} [BEq κ]

def select (t : Table κ α) (key : κ) : Option α := (t.entries.lookup key).or t.defaultAction

def apply (t : Table κ α) (run : α → σ → σ) (key : κ) (s : σ) : σ := (t.select key).elim s (run · s)

/-- The actions of a table are among those that it declares. -/
def Over (t : Table κ α) (actions : List α) : Prop :=
  (∀ e ∈ t.entries, e.2 ∈ actions) ∧ ∀ a, t.defaultAction = some a → a ∈ actions

theorem select_mem [LawfulBEq κ] (t : Table κ α) (actions : List α) (h : t.Over actions) (key : κ)
    (a : α) (ha : t.select key = some a) : a ∈ actions := by
  rcases Option.or_eq_some_iff.mp ha with hl | ⟨-, hd⟩
  · obtain ⟨l, r, he, -⟩ := List.lookup_eq_some_iff.mp hl
    exact h.1 (key, a) (he ▸ List.mem_append_right _ List.mem_cons_self)
  · exact h.2 a hd

end Table

end IntPlatform.Library.MatchAction
