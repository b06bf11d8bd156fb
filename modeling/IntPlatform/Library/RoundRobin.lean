import IntPlatform.Library.Traces
import IntPlatform.Library.CircularIndex
import Mathlib.Data.Fintype.Card

namespace IntPlatform.Library.RoundRobin

open Traces CircularIndex

variable {n : Nat} [NeZero n] {α : Type}

/-- An offered element is tried on the queues in turn. Each of them refuses it
or one accepts it, and it is rejected if none did. -/
inductive Event (n : Nat) (α : Type)
  | offered (v : α)
  | refused (k : Fin n) (v : α)
  | accepted (k : Fin n) (v : α)
  | rejected (v : α)
  | taken (k : Fin n) (v : α)
deriving DecidableEq, Repr

/-- The pending element comes with the number of queues that have refused it. -/
structure Distributor (n : Nat) (α : Type) where
  queues : Fin n → List α
  cursor : Fin n
  pending : Option (α × Nat)

inductive Step (cap : Nat) : Distributor n α → Option (Event n α) → Distributor n α → Prop
  | offer (v : α) (s : Distributor n α) :
      s.pending = none → Step cap s (some (.offered v)) { s with pending := some (v, 0) }
  | refuse (v : α) (i : Nat) (s : Distributor n α) :
      s.pending = some (v, i) → i < n → (s.queues (slot s.cursor 1)).length = cap →
      Step cap s (some (.refused (slot s.cursor 1) v))
        { s with cursor := slot s.cursor 1, pending := some (v, i + 1) }
  | accept (v : α) (i : Nat) (s : Distributor n α) :
      s.pending = some (v, i) → i < n → (s.queues (slot s.cursor 1)).length < cap →
      Step cap s (some (.accepted (slot s.cursor 1) v))
        ⟨Function.update s.queues (slot s.cursor 1) (s.queues (slot s.cursor 1) ++ [v]),
          slot s.cursor 1, none⟩
  | reject (v : α) (s : Distributor n α) :
      s.pending = some (v, n) → Step cap s (some (.rejected v)) { s with pending := none }
  | take (k : Fin n) (v : α) (q : List α) (s : Distributor n α) :
      s.queues k = v :: q →
      Step cap s (some (.taken k v)) { s with queues := Function.update s.queues k q }

/-- Distribution over n queues of at most cap elements. -/
def distribution (n : Nat) [NeZero n] (cap : Nat) (α : Type) : Automaton (Distributor n α) (Event n α) :=
  ⟨fun s => (∀ k, s.queues k = []) ∧ s.pending = none, Step cap⟩

def Event.offer : Event n α → Option α
  | .offered v => some v
  | _ => none

def Event.outcome : Event n α → Option (α × Option (Fin n))
  | .accepted k v => some (v, some k)
  | .rejected v => some (v, none)
  | _ => none

def Event.refusal : Event n α → Option (Fin n × α)
  | .refused k v => some (k, v)
  | _ => none

def Event.takenFrom (k : Fin n) : Event n α → Option α
  | .taken j v => if j = k then some v else none
  | _ => none

def offers (es : List (Event n α)) : List α := es.filterMap Event.offer

def outcomes (es : List (Event n α)) : List (α × Option (Fin n)) := es.filterMap Event.outcome

def refusals (es : List (Event n α)) : List (Fin n × α) := es.filterMap Event.refusal

def settledAs (o : Option (Fin n)) (es : List (Event n α)) : List α :=
  ((outcomes es).filter fun p => p.2 = o).map Prod.fst

def accepts (k : Fin n) (es : List (Event n α)) : List α := settledAs (some k) es

def rejects (es : List (Event n α)) : List α := settledAs none es

def takes (k : Fin n) (es : List (Event n α)) : List α := es.filterMap (Event.takenFrom k)

section Traces

omit [NeZero n]

variable (es es' : List (Event n α)) (e : Event n α) (k : Fin n) (o : Option (Fin n))

theorem offers_append : offers (es ++ es') = offers es ++ offers es' := List.filterMap_append

theorem outcomes_append : outcomes (es ++ es') = outcomes es ++ outcomes es' := List.filterMap_append

theorem refusals_append : refusals (es ++ es') = refusals es ++ refusals es' := List.filterMap_append

theorem takes_append : takes k (es ++ es') = takes k es ++ takes k es' := List.filterMap_append

theorem settledAs_append : settledAs o (es ++ es') = settledAs o es ++ settledAs o es' := by
  rw [settledAs, outcomes_append, List.filter_append, List.map_append]
  rfl

@[simp] theorem offers_singleton : offers [e] = e.offer.toList := by
  cases h : e.offer <;> simp [offers, h]

@[simp] theorem outcomes_singleton : outcomes [e] = e.outcome.toList := by
  cases h : e.outcome <;> simp [outcomes, h]

@[simp] theorem refusals_singleton : refusals [e] = e.refusal.toList := by
  cases h : e.refusal <;> simp [refusals, h]

@[simp] theorem takes_singleton : takes k [e] = (e.takenFrom k).toList := by
  cases h : e.takenFrom k <;> simp [takes, h]

theorem flatMap_single (k : Fin n) (v : α) :
    ((List.finRange n).flatMap fun j => if j = k then [v] else []) = [v] := by
  have hone : (List.finRange n).flatMap (fun j => if j = k then [v] else []) =
      ((List.finRange n).filter fun j => j == k).map fun _ => v := by
    induction List.finRange n with
    | nil => rfl
    | cons j l ih =>
        rw [List.flatMap_cons, ih, List.filter_cons]
        by_cases hj : j = k <;> simp [hj]
  rw [hone, List.filter_beq, List.count_eq_one_of_mem (List.nodup_finRange n) (List.mem_finRange k)]
  rfl

theorem settled_perm (es : List (Event n α)) :
    ((List.finRange n).flatMap (fun k => accepts k es) ++ rejects es).Perm
      ((outcomes es).map Prod.fst) := by
  simp only [accepts, rejects, settledAs]
  induction outcomes es with
  | nil => simp
  | cons p l ih =>
      obtain ⟨v, o⟩ := p
      cases o with
      | none =>
          have hsome (k : Fin n) : ((v, (none : Option (Fin n))) :: l).filter (fun p => p.2 = some k) =
              l.filter fun p => p.2 = some k := List.filter_cons_of_neg (by simp)
          rw [List.filter_cons_of_pos (by simp)]
          simp only [hsome, List.map_cons]
          exact List.perm_middle.trans (ih.cons v)
      | some k =>
          have hsome (j : Fin n) : (((v, some k) :: l).filter fun p => p.2 = some j).map Prod.fst =
              (if j = k then [v] else []) ++ (l.filter fun p => p.2 = some j).map Prod.fst := by
            rw [List.filter_cons]
            by_cases hj : j = k
            · simp [hj]
            · simp [hj, Ne.symm hj]
          have hsplit := (List.finRange n).flatMap_append_perm (fun j => if j = k then [v] else [])
            fun j => (l.filter fun p => p.2 = some j).map Prod.fst
          rw [flatMap_single] at hsplit
          rw [List.filter_cons_of_neg (by simp)]
          simp only [hsome, List.map_cons]
          exact (hsplit.symm.append_right _).trans (ih.cons v)

end Traces

variable {cap : Nat} {es pre post : List (Event n α)} {s : Distributor n α}

/-- Every offered element has one outcome, in the order of the offers, except
for the pending one. -/
theorem offers_eq (h : (distribution n cap α).Run es s) :
    offers es = (outcomes es).map Prod.fst ++ (s.pending.map Prod.fst).toList := by
  refine Automaton.Run.invariant (fun es s => offers es =
    (outcomes es).map Prod.fst ++ (s.pending.map Prod.fst).toList) h ?_ ?_
  · rintro s ⟨-, hp⟩
    rw [hp]
    rfl
  · intro es s o s' hi hs
    rw [offers_append, outcomes_append, hi]
    cases hs with
    | offer v _ hp => simp [hp, Event.offer, Event.outcome]
    | refuse v i _ hp => simp [hp, Event.offer, Event.outcome]
    | accept v i _ hp => simp [hp, Event.offer, Event.outcome]
    | reject v _ hp => simp [hp, Event.offer, Event.outcome]
    | take k v q _ hq => simp [Event.offer, Event.outcome]

theorem accepts_step (k : Fin n) {s' : Distributor n α} {o : Option (Event n α)}
    (h : Step cap s o s') : s.queues k ++ accepts k o.toList = takes k o.toList ++ s'.queues k := by
  cases h with
  | offer v _ hp => simp [accepts, settledAs, Event.outcome, Event.takenFrom]
  | refuse v i _ hp => simp [accepts, settledAs, Event.outcome, Event.takenFrom]
  | reject v _ hp => simp [accepts, settledAs, Event.outcome, Event.takenFrom]
  | accept v i _ hp =>
      by_cases hk : k = slot s.cursor 1
      · subst hk
        simp [accepts, settledAs, Event.outcome, Event.takenFrom]
      · simp [accepts, settledAs, Event.outcome, Event.takenFrom, Ne.symm hk, Function.update_of_ne hk]
  | take j v q _ hq =>
      by_cases hk : k = j
      · subst hk
        simp [accepts, settledAs, Event.outcome, Event.takenFrom, hq]
      · simp [accepts, settledAs, Event.outcome, Event.takenFrom, Ne.symm hk, Function.update_of_ne hk]

theorem accepts_path (k : Fin n) {t : Distributor n α} (h : (distribution n cap α).Path s es t) :
    s.queues k ++ accepts k es = takes k es ++ t.queues k := by
  refine Automaton.Path.invariant (fun es t => s.queues k ++ accepts k es = takes k es ++ t.queues k) h ?_ ?_
  · exact List.append_nil _
  · intro es t o u hi hs
    have he := accepts_step k hs
    rw [accepts] at hi he ⊢
    rw [settledAs_append, ← List.append_assoc, hi, takes_append, List.append_assoc, he, List.append_assoc]

theorem accepts_eq (k : Fin n) (h : (distribution n cap α).Run es s) :
    accepts k es = takes k es ++ s.queues k := by
  obtain ⟨s₀, ⟨hq, -⟩, hp⟩ := h
  have ha := accepts_path k hp
  rwa [hq k, List.nil_append] at ha

theorem refused_full {k : Fin n} {v : α}
    (h : (distribution n cap α).Run (pre ++ .refused k v :: post) s) :
    (accepts k pre).length = (takes k pre).length + cap := by
  obtain ⟨t, t', hpre, hstep, -⟩ := Automaton.Run.split h
  cases hstep with
  | refuse v i _ hp hi hfull => rw [accepts_eq _ hpre, List.length_append, hfull]

def round (cursor : Fin n) (v : α) (i : Nat) : List (Fin n × α) :=
  (List.range i).map fun j => (slot cursor (j + 1), v)

theorem round_succ (cursor : Fin n) (v : α) (i : Nat) :
    round cursor v (i + 1) = round cursor v i ++ [(slot cursor (i + 1), v)] := by
  rw [round, List.range_succ, List.map_append]
  rfl

theorem round_nodup (cursor : Fin n) (v : α) : ((round cursor v n).map Prod.fst).Nodup := by
  rw [round, List.map_map]
  refine List.Nodup.map_on ?_ List.nodup_range
  intro i hi j hj h
  have hs : slot (slot cursor 1) i = slot (slot cursor 1) j := by
    rw [slot_slot, slot_slot, Nat.add_comm 1 i, Nat.add_comm 1 j]
    exact h
  exact slot_injective _ i j (List.mem_range.mp hi) (List.mem_range.mp hj) hs

theorem mem_round (cursor : Fin n) (v : α) (k : Fin n) : (k, v) ∈ round cursor v n := by
  have hn : ((round cursor v n).map Prod.fst).toFinset = Finset.univ := by
    apply Finset.eq_univ_of_card
    rw [List.toFinset_card_of_nodup (round_nodup cursor v)]
    simp [round]
  have hk : k ∈ ((round cursor v n).map Prod.fst).toFinset := by
    rw [hn]
    exact Finset.mem_univ k
  obtain ⟨p, hp, rfl⟩ := List.mem_map.mp (List.mem_toFinset.mp hk)
  obtain ⟨j, -, rfl⟩ := List.mem_map.mp hp
  exact hp

/-- While an element is pending, it has been refused by the queues behind the
cursor of its offer, one after the other, and nothing has been accepted. -/
theorem pending_scan {v : α} {s t : Distributor n α} {mid : List (Event n α)}
    (hoffer : s.pending = some (v, 0)) (h : (distribution n cap α).Path s mid t)
    (hmid : offers mid = []) :
    t.pending = none ∨ ∃ i, i ≤ n ∧ t.pending = some (v, i) ∧ refusals mid = round s.cursor v i ∧
      outcomes mid = [] ∧ t.cursor = slot s.cursor i := by
  refine Automaton.Path.invariant (fun mid t => offers mid = [] → t.pending = none ∨
    ∃ i, i ≤ n ∧ t.pending = some (v, i) ∧ refusals mid = round s.cursor v i ∧ outcomes mid = [] ∧
      t.cursor = slot s.cursor i) h ?_ ?_ hmid
  · intro _
    exact .inr ⟨0, Nat.zero_le n, hoffer, rfl, rfl, (slot_zero s.cursor).symm⟩
  · intro es t o u hi hs hnone
    rw [offers_append, List.append_eq_nil_iff] at hnone
    rw [refusals_append, outcomes_append]
    rcases hi hnone.1 with hp | ⟨i, hin, hp, hr, ho, hc⟩
    · cases hs with
      | offer w => simp [Event.offer] at hnone
      | refuse w i _ hp' => rw [hp] at hp'; cases hp'
      | accept w i _ hp' => exact .inl rfl
      | reject w _ hp' => exact .inl rfl
      | take k w q _ hq => exact .inl hp
    · cases hs with
      | offer w => simp [Event.offer] at hnone
      | refuse w j _ hp' hlt =>
          rw [hp] at hp'
          cases hp'
          refine .inr ⟨i + 1, hlt, rfl, ?_, ?_, ?_⟩
          · rw [hr, round_succ, hc, slot_slot]
            rfl
          · rw [ho]
            rfl
          · rw [hc, slot_slot]
      | accept w i _ hp' => exact .inl rfl
      | reject w _ hp' => exact .inl rfl
      | take k w q _ hq =>
          refine .inr ⟨i, hin, hp, ?_, ?_, hc⟩
          · rw [hr]
            exact List.append_nil _
          · rw [ho]
            rfl

/-- A rejected element was refused by every queue once since its offer. No
element was accepted in the meantime, and the cursor is where it was. -/
theorem rejected_scan {v w : α} {s s₁ s₂ s₃ : Distributor n α} {mid : List (Event n α)}
    (hoffer : Step cap s (some (.offered v)) s₁) (hmid : (distribution n cap α).Path s₁ mid s₂)
    (hnone : offers mid = []) (hreject : Step cap s₂ (some (.rejected w)) s₃) :
    w = v ∧ refusals mid = round s.cursor v n ∧ outcomes mid = [] ∧ s₃.cursor = s.cursor := by
  cases hoffer
  cases hreject with
  | reject _ _ hp =>
      rcases pending_scan rfl hmid hnone with hp' | ⟨i, -, hp', hr, ho, hc⟩
      · rw [hp] at hp'
        cases hp'
      · rw [hp] at hp'
        cases hp'
        exact ⟨rfl, hr, ho, hc.trans (slot_size _)⟩

end IntPlatform.Library.RoundRobin
