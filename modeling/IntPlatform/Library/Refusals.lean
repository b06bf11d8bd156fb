import IntPlatform.Library.Mealy

namespace IntPlatform.Library.Refusals

open Mealy

variable {σ α ε : Type}

def FirstRefused (refusal : List α → α → Option ε) (e : ε) (l : List α) : Prop :=
  ∃ pre a post, l = pre ++ a :: post ∧ AtEach (fun pre a => refusal pre a = none) pre ∧
    refusal pre a = some e

theorem firstRefused_append (refusal : List α → α → Option ε) (e : ε) (l l' : List α)
    (h : FirstRefused refusal e l) : FirstRefused refusal e (l ++ l') := by
  obtain ⟨pre, a, post, rfl, hpre, ha⟩ := h
  exact ⟨pre, a, post ++ l', by rw [List.append_assoc, List.cons_append], hpre, ha⟩

theorem accepted_or_refused (refusal : List α → α → Option ε) (l : List α) :
    AtEach (fun pre a => refusal pre a = none) l ∨ ∃ e, FirstRefused refusal e l := by
  induction l using List.reverseRecOn with
  | nil => exact Or.inl (atEach_nil _)
  | append_singleton l a ih =>
      rcases ih with hl | ⟨e, he⟩
      · cases ha : refusal l a with
        | none => exact Or.inl ((atEach_concat _ l a).mpr ⟨hl, ha⟩)
        | some e => exact Or.inr ⟨e, l, a, [], rfl, hl, ha⟩
      · exact Or.inr ⟨e, firstRefused_append refusal e l [a] he⟩

section Fold

variable (step : σ → α → Except ε σ) (state : List α → σ) (refusal : List α → α → Option ε)

/-- A loop whose step knows from the elements so far what the state is and
whether the next element is refused. -/
structure Decides : Prop where
  accepted : ∀ pre a, refusal pre a = none → step (state pre) a = .ok (state (pre ++ [a]))
  refused : ∀ pre a e, refusal pre a = some e → step (state pre) a = .error e

variable {step state refusal} (h : Decides step state refusal)

include h

theorem Decides.run_accepted (l : List α) (hl : AtEach (fun pre a => refusal pre a = none) l) :
    l.foldlM step (state []) = .ok (state l) := by
  induction l using List.reverseRecOn with
  | nil => rfl
  | append_singleton l a ih =>
      obtain ⟨hpre, ha⟩ := (atEach_concat _ l a).mp hl
      rw [List.foldlM_append, ih hpre]
      change [a].foldlM step (state l) = _
      rw [List.foldlM_cons, h.accepted l a ha]
      rfl

theorem Decides.run_refused (e : ε) (l : List α) (hl : FirstRefused refusal e l) :
    l.foldlM step (state []) = .error e := by
  obtain ⟨pre, a, post, rfl, hpre, ha⟩ := hl
  rw [List.foldlM_append, h.run_accepted pre hpre]
  change (a :: post).foldlM step (state pre) = _
  rw [List.foldlM_cons, h.refused pre a e ha]
  rfl

theorem Decides.run_ok_iff (l : List α) (s : σ) :
    l.foldlM step (state []) = .ok s ↔ AtEach (fun pre a => refusal pre a = none) l ∧ s = state l := by
  constructor
  · intro hs
    rcases accepted_or_refused refusal l with hl | ⟨e, he⟩
    · rw [h.run_accepted l hl] at hs
      exact ⟨hl, (Except.ok.inj hs).symm⟩
    · rw [h.run_refused e l he] at hs
      cases hs
  · rintro ⟨hl, rfl⟩
    exact h.run_accepted l hl

theorem Decides.run_error_iff (l : List α) (e : ε) :
    l.foldlM step (state []) = .error e ↔ FirstRefused refusal e l := by
  constructor
  · intro he
    rcases accepted_or_refused refusal l with hl | ⟨e', he'⟩
    · rw [h.run_accepted l hl] at he
      cases he
    · rw [h.run_refused e' l he'] at he
      cases he
      exact he'
  · exact h.run_refused e l

end Fold

end IntPlatform.Library.Refusals
