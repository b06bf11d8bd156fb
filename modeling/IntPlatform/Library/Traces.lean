import Mathlib.Data.List.Basic

namespace IntPlatform.Library.Traces

variable {σ τ ε : Type}

/-- A step of an automaton is silent or shows one event. -/
structure Automaton (σ ε : Type) where
  initial : σ → Prop
  step : σ → Option ε → σ → Prop

namespace Automaton

/-- From s the automaton can come to the second state with these events. -/
inductive Path (M : Automaton σ ε) (s : σ) : List ε → σ → Prop
  | nil : Path M s [] s
  | snoc {es : List ε} {t : σ} (o : Option ε) (u : σ) :
      Path M s es t → M.step t o u → Path M s (es ++ o.toList) u

def Run (M : Automaton σ ε) (es : List ε) (t : σ) : Prop := ∃ s, M.initial s ∧ M.Path s es t

variable {M : Automaton σ ε}

theorem Path.invariant {s t : σ} {es : List ε} (I : List ε → σ → Prop) (h : M.Path s es t)
    (hinit : I [] s) (hstep : ∀ es t o u, I es t → M.step t o u → I (es ++ o.toList) u) : I es t := by
  induction h with
  | nil => exact hinit
  | snoc o u _ hs ih => exact hstep _ _ o u ih hs

theorem Run.invariant {t : σ} {es : List ε} (I : List ε → σ → Prop) (h : M.Run es t)
    (hinit : ∀ s, M.initial s → I [] s)
    (hstep : ∀ es t o u, I es t → M.step t o u → I (es ++ o.toList) u) : I es t := by
  obtain ⟨s, hs, hp⟩ := h
  exact Path.invariant I hp (hinit s hs) hstep

theorem Path.trans {s t u : σ} {es es' : List ε} (h : M.Path s es t) (h' : M.Path t es' u) :
    M.Path s (es ++ es') u := by
  induction h' with
  | nil => simpa using h
  | snoc o v _ hs ih =>
      rw [← List.append_assoc]
      exact .snoc o v ih hs

theorem Path.single {s u : σ} {o : Option ε} (h : M.step s o u) : M.Path s o.toList u := by
  have hp := Path.snoc o u (Path.nil (M := M) (s := s)) h
  rwa [List.nil_append] at hp

theorem Path.split {s u : σ} {es : List ε} (h : M.Path s es u) (pre : List ε) (e : ε) (post : List ε)
    (he : es = pre ++ e :: post) :
    ∃ t t', M.Path s pre t ∧ M.step t (some e) t' ∧ M.Path t' post u := by
  induction h generalizing post with
  | nil => simp at he
  | @snoc es₁ t₁ o v hp hs ih =>
      cases o with
      | none =>
          rw [Option.toList_none, List.append_nil] at he
          obtain ⟨t, t', hpre, hstep, hpost⟩ := ih post he
          refine ⟨t, t', hpre, hstep, ?_⟩
          simpa using Path.snoc none v hpost hs
      | some e' =>
          rcases List.eq_nil_or_concat post with rfl | ⟨post', e'', rfl⟩
          · obtain ⟨rfl, he'⟩ := List.append_inj' he rfl
            cases he'
            exact ⟨t₁, v, hp, hs, .nil⟩
          · rw [List.concat_eq_append, ← List.cons_append, ← List.append_assoc] at he
            obtain ⟨he, he'⟩ := List.append_inj' he rfl
            obtain ⟨t, t', hpre, hstep, hpost⟩ := ih post' he
            refine ⟨t, t', hpre, hstep, ?_⟩
            rw [List.concat_eq_append, ← List.cons.inj he' |>.1]
            exact Path.snoc (some e') v hpost hs

theorem Run.split {u : σ} {pre post : List ε} {e : ε} (h : M.Run (pre ++ e :: post) u) :
    ∃ t t', M.Run pre t ∧ M.step t (some e) t' ∧ M.Path t' post u := by
  obtain ⟨s, hs, hp⟩ := h
  obtain ⟨t, t', hpre, hstep, hpost⟩ := Path.split hp pre e post rfl
  exact ⟨t, t', ⟨s, hs, hpre⟩, hstep, hpost⟩

end Automaton

open Automaton

variable {M : Automaton σ ε} {N : Automaton τ ε}

structure Simulation (M : Automaton σ ε) (N : Automaton τ ε) (R : σ → τ → Prop) : Prop where
  initial : ∀ s, M.initial s → ∃ t, N.initial t ∧ R s t
  step : ∀ s t o s', R s t → M.step s o s' → ∃ t', N.Path t o.toList t' ∧ R s' t'

theorem Simulation.path {R : σ → τ → Prop} (hsim : Simulation M N R) {es : List ε} {s s' : σ} {t : τ}
    (hr : R s t) (h : M.Path s es s') : ∃ t', N.Path t es t' ∧ R s' t' := by
  refine Automaton.Path.invariant (fun es s' => ∃ t', N.Path t es t' ∧ R s' t') h ⟨t, .nil, hr⟩ ?_
  rintro es s o s' ⟨t', hp, hr⟩ hs
  obtain ⟨t'', hp', hr'⟩ := hsim.step s t' o s' hr hs
  exact ⟨t'', hp.trans hp', hr'⟩

theorem Simulation.run {R : σ → τ → Prop} (hsim : Simulation M N R) {es : List ε} {s : σ}
    (h : M.Run es s) : ∃ t, N.Run es t ∧ R s t := by
  obtain ⟨s₀, hs, hp⟩ := h
  obtain ⟨t₀, ht, hr⟩ := hsim.initial s₀ hs
  obtain ⟨t, hp', hr'⟩ := hsim.path hr hp
  exact ⟨t, ⟨t₀, ht, hp'⟩, hr'⟩

end IntPlatform.Library.Traces
