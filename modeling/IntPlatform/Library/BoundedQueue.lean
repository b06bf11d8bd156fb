import IntPlatform.Library.Traces

namespace IntPlatform.Library.BoundedQueue

open Traces

variable {α : Type}

inductive Event (α : Type)
  | push (v : α)
  | full (v : α)
  | pop (v : α)
  | empty
deriving DecidableEq, Repr

inductive Step (cap : Nat) : List α → Option (Event α) → List α → Prop
  | push (v : α) (q : List α) : q.length < cap → Step cap q (some (.push v)) (q ++ [v])
  | full (v : α) (q : List α) : q.length = cap → Step cap q (some (.full v)) q
  | pop (v : α) (q : List α) : Step cap (v :: q) (some (.pop v)) q
  | empty : Step cap [] (some .empty) []

def boundedQueue (cap : Nat) : Automaton (List α) (Event α) := ⟨fun q => q = [], Step cap⟩

def Event.pushed : Event α → Option α
  | .push v => some v
  | _ => none

def Event.popped : Event α → Option α
  | .pop v => some v
  | _ => none

def pushes (es : List (Event α)) : List α := es.filterMap Event.pushed

def pops (es : List (Event α)) : List α := es.filterMap Event.popped

variable {cap : Nat} {es pre post : List (Event α)} {q : List α}

theorem pushes_eq (h : (boundedQueue cap).Run es q) : pushes es = pops es ++ q := by
  refine Automaton.Run.invariant (fun es q => pushes es = pops es ++ q) h ?_ ?_
  · rintro q rfl
    rfl
  · intro es q o q' hi hs
    simp only [pushes, pops] at hi ⊢
    rw [List.filterMap_append, List.filterMap_append, hi]
    cases hs <;> simp [List.filterMap_cons, Event.pushed, Event.popped]

theorem length_le (h : (boundedQueue cap).Run es q) : q.length ≤ cap := by
  refine Automaton.Run.invariant (fun _ q => q.length ≤ cap) h ?_ ?_
  · rintro q rfl
    exact Nat.zero_le _
  · intro es q o q' hi hs
    cases hs with
    | push v q hlt =>
        rw [List.length_append, List.length_singleton]
        omega
    | full v q he => exact hi
    | pop v q =>
        rw [List.length_cons] at hi
        omega
    | empty => exact Nat.zero_le _

theorem pops_prefix (h : (boundedQueue cap).Run es q) : pops es <+: pushes es :=
  ⟨q, (pushes_eq h).symm⟩

theorem stored_le (h : (boundedQueue cap).Run es q) : (pushes es).length ≤ (pops es).length + cap := by
  have hl := length_le h
  rw [pushes_eq h, List.length_append]
  omega

theorem stored_full {v : α} (h : (boundedQueue cap).Run (pre ++ .full v :: post) q) :
    (pushes pre).length = (pops pre).length + cap := by
  obtain ⟨t, t', hpre, hstep, -⟩ := Automaton.Run.split h
  cases hstep with
  | full v q he => rw [pushes_eq hpre, List.length_append, he]

theorem stored_empty (h : (boundedQueue cap).Run (pre ++ .empty :: post) q) :
    (pushes pre).length = (pops pre).length := by
  obtain ⟨t, t', hpre, hstep, -⟩ := Automaton.Run.split h
  cases hstep with
  | empty => rw [pushes_eq hpre, List.append_nil]

end IntPlatform.Library.BoundedQueue
