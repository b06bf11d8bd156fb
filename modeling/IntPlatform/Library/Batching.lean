import Mathlib.Data.List.Flatten

namespace IntPlatform.Library.Batching

/-- The batches that were handed over and the elements that wait for the next one. -/
structure Batches (α : Type) where
  sent : List (List α)
  pending : List α
  sent_ne_nil : ∀ batch ∈ sent, batch ≠ []

namespace Batches

variable {α β : Type} (b : Batches α)

def empty : Batches α := ⟨[], [], by simp⟩

def add (a : α) : Batches α := ⟨b.sent, b.pending ++ [a], b.sent_ne_nil⟩

def flush (h : b.pending ≠ []) : Batches α where
  sent := b.sent ++ [b.pending]
  pending := []
  sent_ne_nil := by
    intro batch hb
    rcases List.mem_append.mp hb with hb | hb
    · exact b.sent_ne_nil batch hb
    · rwa [List.mem_singleton.mp hb]

def items : List α := b.sent.flatten ++ b.pending

@[simp] theorem items_add (a : α) : (b.add a).items = b.items ++ [a] :=
  (List.append_assoc _ _ _).symm

@[simp] theorem items_flush (h : b.pending ≠ []) : (b.flush h).items = b.items := by
  rw [items, items, flush, List.flatten_append, List.flatten_singleton, List.append_nil]

theorem add_pending_ne_nil (a : α) : (b.add a).pending ≠ [] :=
  List.append_ne_nil_of_right_ne_nil _ (List.cons_ne_nil a [])

def bodies (text : α → List β) : List (List β) := b.sent.map (List.flatMap text)

def rest (text : α → List β) : List β := b.pending.flatMap text

theorem bodies_add (text : α → List β) (a : α) : (b.add a).bodies text = b.bodies text := rfl

theorem bodies_flush (text : α → List β) (h : b.pending ≠ []) :
    (b.flush h).bodies text = b.bodies text ++ [b.rest text] :=
  List.map_append

theorem flatten_map_flatMap (text : α → List β) (batches : List (List α)) :
    (batches.map (List.flatMap text)).flatten = batches.flatten.flatMap text := by
  induction batches with
  | nil => rfl
  | cons batch batches ih =>
      rw [List.map_cons, List.flatten_cons, ih, List.flatten_cons, List.flatMap_append]

theorem bodies_rest (text : α → List β) :
    (b.bodies text).flatten ++ b.rest text = b.items.flatMap text := by
  rw [items, rest, bodies, List.flatMap_append, flatten_map_flatMap]

theorem bodies_ne_nil (text : α → List β) (htext : ∀ a ∈ b.items, text a ≠ []) (body : List β)
    (h : body ∈ b.bodies text) : body ≠ [] := by
  obtain ⟨batch, hb, rfl⟩ := List.mem_map.mp h
  obtain ⟨a, as, rfl⟩ := List.exists_cons_of_ne_nil (b.sent_ne_nil batch hb)
  rw [List.flatMap_cons]
  apply List.append_ne_nil_of_left_ne_nil
  apply htext
  exact List.mem_append_left _ (List.mem_flatten.mpr ⟨_, hb, List.mem_cons_self⟩)

end Batches

section Groups

variable {α : Type} (full : List α → Bool)

/-- The groups of a list whose first group has begun. A group ends with the
element that makes it full. -/
def groups (pending : List α) : List α → List (List α)
  | [] => []
  | a :: as =>
      if full (pending ++ [a]) then (pending ++ [a]) :: groups [] as else groups (pending ++ [a]) as

theorem full_of_mem_groups (pending as : List α) (group : List α) (h : group ∈ groups full pending as) :
    full group = true := by
  induction as generalizing pending with
  | nil => cases h
  | cons a as ih =>
      rw [groups] at h
      split at h
      · next hfull =>
        rcases List.mem_cons.mp h with rfl | h
        · exact hfull
        · exact ih [] h
      · exact ih (pending ++ [a]) h

theorem sublist_of_mem_groups (pending as : List α) (group : List α)
    (h : group ∈ groups full pending as) : group.Sublist (pending ++ as) := by
  induction as generalizing pending with
  | nil => cases h
  | cons a as ih =>
      rw [List.append_cons]
      rw [groups] at h
      split at h
      · rcases List.mem_cons.mp h with rfl | h
        · exact List.sublist_append_left _ _
        · exact (ih [] h).trans (List.sublist_append_right _ _)
      · exact ih (pending ++ [a]) h

theorem ne_nil_of_mem_groups (pending as : List α) (group : List α) (h : group ∈ groups full pending as) :
    group ≠ [] := by
  induction as generalizing pending with
  | nil => cases h
  | cons a as ih =>
      rw [groups] at h
      split at h
      · rcases List.mem_cons.mp h with rfl | h
        · exact List.append_ne_nil_of_right_ne_nil _ (List.cons_ne_nil a [])
        · exact ih [] h
      · exact ih (pending ++ [a]) h

theorem exists_full_of_groups (pending as : List α) (h : groups full pending as ≠ []) :
    ∃ pre post, as = pre ++ post ∧ pre ≠ [] ∧ full (pending ++ pre) = true := by
  induction as generalizing pending with
  | nil => exact absurd rfl h
  | cons a as ih =>
      by_cases hfull : full (pending ++ [a]) = true
      · exact ⟨[a], as, rfl, List.cons_ne_nil a [], hfull⟩
      · rw [groups, if_neg hfull] at h
        obtain ⟨pre, post, rfl, -, hpre⟩ := ih (pending ++ [a]) h
        exact ⟨a :: pre, post, rfl, List.cons_ne_nil a pre, by rwa [List.append_cons]⟩

theorem groups_ne_nil (pending as : List α) (hne : as ≠ []) (h : full (pending ++ as) = true) :
    groups full pending as ≠ [] := by
  induction as generalizing pending with
  | nil => exact absurd rfl hne
  | cons a as ih =>
      rw [groups]
      split
      · exact List.cons_ne_nil _ _
      · next hfull =>
        rw [List.append_cons] at h
        cases as with
        | nil =>
            rw [List.append_nil] at h
            exact absurd h hfull
        | cons b as => exact ih (pending ++ [a]) (List.cons_ne_nil b as) h

theorem groups_prefix (pending pre post : List α) (h : groups full pending pre ≠ []) :
    groups full pending (pre ++ post) ≠ [] := by
  induction pre generalizing pending with
  | nil => exact absurd rfl h
  | cons a pre ih =>
      rw [List.cons_append, groups]
      by_cases hfull : full (pending ++ [a]) = true
      · rw [if_pos hfull]
        exact List.cons_ne_nil _ _
      · rw [groups, if_neg hfull] at h
        rw [if_neg hfull]
        exact ih (pending ++ [a]) h

end Groups

end IntPlatform.Library.Batching
