import IntPlatform.Library.Traces
import Mathlib.Data.List.Induction

namespace IntPlatform.Library.Schedules

open Traces

variable {σ μ ε : Type} (step : μ → σ → Option (σ × Option ε))

def run : List μ → σ → Option (List ε × σ)
  | [], s => some ([], s)
  | m :: ms, s => (step m s).bind fun p => (run ms p.1).map fun q => (p.2.toList ++ q.1, q.2)

variable {step} {s t u : σ} {ms ms' : List μ} {es es' : List ε}

theorem run_append (h : run step ms s = some (es, t)) (h' : run step ms' t = some (es', u)) :
    run step (ms ++ ms') s = some (es ++ es', u) := by
  induction ms generalizing s es with
  | nil =>
      cases h
      exact h'
  | cons m ms ih =>
      obtain ⟨⟨s', o⟩, hs, hq⟩ := Option.bind_eq_some_iff.mp h
      obtain ⟨⟨es₁, t'⟩, hrun, he⟩ := Option.map_eq_some_iff.mp hq
      cases he
      rw [List.cons_append, run, hs, Option.bind_some, ih hrun, Option.map_some, List.append_assoc]

theorem run_split (h : run step (ms ++ ms') s = some (es, u)) :
    ∃ es₁ t es₂, run step ms s = some (es₁, t) ∧ run step ms' t = some (es₂, u) ∧ es = es₁ ++ es₂ := by
  induction ms generalizing s es with
  | nil => exact ⟨[], s, es, rfl, h, rfl⟩
  | cons m ms ih =>
      obtain ⟨⟨s', o⟩, hs, hq⟩ := Option.bind_eq_some_iff.mp h
      obtain ⟨⟨es', u'⟩, hrun, he⟩ := Option.map_eq_some_iff.mp hq
      cases he
      obtain ⟨es₁, t, es₂, hrun₁, hrun₂, rfl⟩ := ih hrun
      refine ⟨o.toList ++ es₁, t, es₂, ?_, hrun₂, (List.append_assoc _ _ _).symm⟩
      rw [run, hs, Option.bind_some, hrun₁]
      rfl

theorem run_cons {m : μ} (h : run step (m :: ms) s = some (es, u)) :
    ∃ t o es', step m s = some (t, o) ∧ run step ms t = some (es', u) ∧ es = o.toList ++ es' := by
  obtain ⟨⟨t, o⟩, hs, hq⟩ := Option.bind_eq_some_iff.mp h
  obtain ⟨⟨es', u'⟩, hrun, he⟩ := Option.map_eq_some_iff.mp hq
  cases he
  exact ⟨t, o, es', hs, hrun, rfl⟩

theorem run_concat {m : μ} (h : run step (ms ++ [m]) s = some (es, u)) :
    ∃ es' t o, run step ms s = some (es', t) ∧ step m t = some (u, o) ∧ es = es' ++ o.toList := by
  obtain ⟨es', t, es₂, hrun, hm, rfl⟩ := run_split h
  obtain ⟨u', o, es₃, hs, hnil, rfl⟩ := run_cons hm
  cases hnil
  exact ⟨es', t, o, hrun, hs, by rw [List.append_nil]⟩

/-- What every move keeps holds along a run, with the moves and events so far. -/
theorem run_invariant (I : List μ → List ε → σ → Prop) (h : run step ms s = some (es, t))
    (hinit : I [] [] s)
    (hstep : ∀ ms es t m u o, I ms es t → step m t = some (u, o) → I (ms ++ [m]) (es ++ o.toList) u) :
    I ms es t := by
  induction ms using List.reverseRecOn generalizing es t with
  | nil =>
      cases h
      exact hinit
  | append_singleton ms m ih =>
      obtain ⟨es', t', o, hrun, hm, rfl⟩ := run_concat h
      exact hstep ms es' t' m t o (ih hrun) hm

theorem filterMap_toList {δ : Type} (f : ε → Option δ) (o : Option ε) :
    o.toList.filterMap f = (o.bind f).toList := by
  cases o with
  | none => rfl
  | some e => cases h : f e <;> simp [h]

/-- A part of the state that an automaton accounts for, with the events that
the automaton shares. -/
theorem run_projects {τ δ : Type} (N : Automaton τ δ) (part : σ → τ) (shared : ε → Option δ)
    (hstep : ∀ m s t o, step m s = some (t, o) →
      N.Path (part s) (o.bind shared).toList (part t)) (h : run step ms s = some (es, t)) :
    N.Path (part s) (es.filterMap shared) (part t) := by
  refine run_invariant (fun _ es t => N.Path (part s) (es.filterMap shared) (part t)) h .nil ?_
  intro ms es t m u o hp hs
  rw [List.filterMap_append, filterMap_toList]
  exact hp.trans (hstep m t u o hs)

/-- The moves that count are paid for by a potential that falls, by one that
rises, and by the events of a kind. -/
theorem run_paid (I : σ → Prop) (p : μ → Bool) (q : ε → Bool) (c : Nat) (falling rising : σ → Nat)
    (hstep : ∀ m s t o, I s → step m s = some (t, o) → I t ∧
      [m].countP p + falling t + rising s ≤ falling s + rising t + c * o.toList.countP q)
    (h : run step ms s = some (es, t)) (hs : I s) :
    I t ∧ ms.countP p + falling t + rising s ≤ falling s + rising t + c * es.countP q := by
  refine run_invariant (fun ms es t =>
    I t ∧ ms.countP p + falling t + rising s ≤ falling s + rising t + c * es.countP q) h ?_ ?_
  · refine ⟨hs, ?_⟩
    simp only [List.countP_nil]
    omega
  · intro ms es t m u o hi hm
    obtain ⟨hu, hpaid⟩ := hstep m t u o hi.1 hm
    refine ⟨hu, ?_⟩
    have hsofar := hi.2
    rw [List.countP_append, List.countP_append, Nat.mul_add]
    omega

end IntPlatform.Library.Schedules
