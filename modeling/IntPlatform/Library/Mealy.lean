import Mathlib.Data.List.Induction
import Mathlib.Logic.Function.Iterate

namespace IntPlatform.Library.Mealy

section AtEach

variable {α : Type}

/-- P holds of every element of a list and the elements before it. -/
def AtEach (P : List α → α → Prop) (l : List α) : Prop :=
  ∀ pre a post, l = pre ++ a :: post → P pre a

theorem atEach_nil (P : List α → α → Prop) : AtEach P [] := by
  intro pre a post h
  simp at h

theorem atEach_concat (P : List α → α → Prop) (l : List α) (a : α) :
    AtEach P (l ++ [a]) ↔ AtEach P l ∧ P l a := by
  constructor
  · intro h
    refine ⟨?_, h l a [] rfl⟩
    intro pre b post he
    apply h pre b (post ++ [a])
    rw [he, List.append_assoc, List.cons_append]
  · rintro ⟨h, hlast⟩ pre b post he
    rcases List.eq_nil_or_concat post with rfl | ⟨post, c, rfl⟩
    · obtain ⟨rfl, rfl⟩ := List.append_singleton_inj.mp he
      exact hlast
    · rw [List.concat_eq_append, ← List.cons_append, ← List.append_assoc] at he
      exact h pre b post (List.append_singleton_inj.mp he).1

theorem atEach_cons (P : List α → α → Prop) (a : α) (l : List α) :
    AtEach P (a :: l) ↔ P [] a ∧ AtEach (fun pre => P (a :: pre)) l := by
  constructor
  · intro h
    refine ⟨h [] a l rfl, ?_⟩
    intro pre b post he
    exact h (a :: pre) b post (congrArg (a :: ·) he)
  · rintro ⟨hfirst, h⟩ pre b post he
    cases pre with
    | nil =>
        obtain ⟨rfl, -⟩ := List.cons.inj he
        exact hfirst
    | cons c pre =>
        obtain ⟨rfl, htail⟩ := List.cons.inj he
        exact h pre b post htail

theorem atEach_prefix (P : List α → α → Prop) (l l' : List α) (h : AtEach P (l ++ l')) : AtEach P l := by
  intro pre a post he
  apply h pre a (post ++ l')
  rw [he, List.append_assoc, List.cons_append]

end AtEach

structure Machine (σ ι ο : Type) where
  next : σ → ι → σ
  out : σ → ι → ο

namespace Machine

variable {σ ι ο γ : Type} (M : Machine σ ι ο)

def after (s : σ) (is : List ι) : σ := is.foldl M.next s

def outputs (s : σ) : List ι → List ο
  | [] => []
  | i :: is => M.out s i :: outputs (M.next s i) is

theorem after_append (s : σ) (is js : List ι) : M.after s (is ++ js) = M.after (M.after s is) js :=
  List.foldl_append

theorem after_concat (s : σ) (is : List ι) (i : ι) : M.after s (is ++ [i]) = M.next (M.after s is) i :=
  M.after_append s is [i]

theorem outputs_append (s : σ) (is js : List ι) :
    M.outputs s (is ++ js) = M.outputs s is ++ M.outputs (M.after s is) js := by
  induction is generalizing s with
  | nil => rfl
  | cons i is ih => exact congrArg (M.out s i :: ·) (ih (M.next s i))

theorem outputs_concat (s : σ) (is : List ι) (i : ι) :
    M.outputs s (is ++ [i]) = M.outputs s is ++ [M.out (M.after s is) i] :=
  M.outputs_append s is [i]

theorem outputs_length (s : σ) (is : List ι) : (M.outputs s is).length = is.length := by
  induction is generalizing s with
  | nil => rfl
  | cons i is ih => rw [outputs, List.length_cons, ih, List.length_cons]

theorem mem_outputs (s : σ) (is : List ι) (o : ο) (h : o ∈ M.outputs s is) :
    ∃ t, ∃ i ∈ is, o = M.out t i := by
  induction is generalizing s with
  | nil => cases h
  | cons i is ih =>
      rcases List.mem_cons.mp h with rfl | h
      · exact ⟨s, i, List.mem_cons_self, rfl⟩
      · obtain ⟨t, j, hj, ho⟩ := ih (M.next s i) h
        exact ⟨t, j, List.mem_cons_of_mem i hj, ho⟩

/-- What every step keeps holds along a run, with the inputs and outputs so far. -/
theorem invariant {s : σ} (I : List ι → List ο → σ → Prop) (hinit : I [] [] s)
    (hstep : ∀ is os t i, I is os t → I (is ++ [i]) (os ++ [M.out t i]) (M.next t i)) (is : List ι) :
    I is (M.outputs s is) (M.after s is) := by
  induction is using List.reverseRecOn with
  | nil => exact hinit
  | append_singleton is i ih =>
      rw [outputs_concat, after_concat]
      exact hstep _ _ _ i ih

/-- A machine that only some inputs move has moved once for each of them. -/
theorem after_iterate (p : ι → Bool) (f : σ → σ) (h : ∀ s i, M.next s i = if p i then f s else s)
    (s : σ) (is : List ι) : M.after s is = f^[is.countP p] s := by
  induction is using List.reverseRecOn with
  | nil => rfl
  | append_singleton is i ih =>
      rw [after_concat, ih, h, List.countP_append, List.countP_singleton]
      cases p i with
      | false => rfl
      | true => exact (Function.iterate_succ_apply' f _ s).symm

/-- Machines that answer alike from related states answer alike on every run. -/
theorem outputs_simulated {τ κ : Type} (N : Machine τ ι κ) (f : ο → κ) (R : σ → τ → Prop)
    (hstep : ∀ s t i, R s t → f (M.out s i) = N.out t i ∧ R (M.next s i) (N.next t i)) (s : σ) (t : τ)
    (h : R s t) (is : List ι) : (M.outputs s is).map f = N.outputs t is := by
  induction is generalizing s t with
  | nil => rfl
  | cons i is ih =>
      obtain ⟨hout, hnext⟩ := hstep s t i h
      rw [outputs, outputs, List.map_cons, hout, ih _ _ hnext]

section Isolation

variable (p : ι → Bool) (q : ο → Bool) (g : ο → γ)

/-- At every input with p the machine shows the same with and without the
inputs in between. -/
def Isolated (s : σ) (is : List ι) : Prop :=
  ∀ pre i post, is = pre ++ i :: post → p i = true →
    g (M.out (M.after s pre) i) = g (M.out (M.after s (pre.filter p)) i)

theorem isolated_concat (s : σ) (is : List ι) (i : ι) :
    M.Isolated p g s (is ++ [i]) ↔ M.Isolated p g s is ∧
      (p i = true → g (M.out (M.after s is) i) = g (M.out (M.after s (is.filter p)) i)) :=
  atEach_concat _ is i

/-- Two runs show the same at the inputs with p, one over all inputs and one
over these only, exactly when each of these inputs is isolated. -/
theorem isolated_iff (hq : ∀ s i, q (M.out s i) = p i) (s : σ) (is : List ι) :
    ((M.outputs s is).filter q).map g = (M.outputs s (is.filter p)).map g ↔ M.Isolated p g s is := by
  induction is using List.reverseRecOn with
  | nil => exact iff_of_true rfl (atEach_nil _)
  | append_singleton is i ih =>
      rw [isolated_concat, ← ih, outputs_concat, List.filter_append, List.map_append, List.filter_append]
      cases hp : p i with
      | false =>
          rw [List.filter_cons_of_neg (by rw [hq, hp]; exact Bool.false_ne_true),
            List.filter_cons_of_neg (by rw [hp]; exact Bool.false_ne_true)]
          simp
      | true =>
          rw [List.filter_cons_of_pos (by rw [hq, hp]), List.filter_cons_of_pos hp, List.filter_nil,
            List.filter_nil, outputs_concat, List.map_append, List.map_singleton, List.map_singleton,
            List.append_singleton_inj, forall_prop_of_true rfl]

end Isolation

end Machine

end IntPlatform.Library.Mealy
