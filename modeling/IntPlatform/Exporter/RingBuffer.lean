import IntPlatform.Library.BoundedQueue
import IntPlatform.Library.CircularIndex

namespace IntPlatform.Exporter.RingBuffer

open Library.Traces Library.BoundedQueue Library.CircularIndex

inductive Producer (size : Nat) (T : Type)
  | idle
  | loadedHead (value : T) (head nextHead : Fin size)
  | writing (value : T) (head nextHead : Fin size)
  | storing (value : T) (head nextHead : Fin size)
deriving DecidableEq

inductive Consumer (size : Nat) (T : Type)
  | idle
  | loadedTail (tail : Fin size)
  | reading (tail : Fin size)
  | storing (tail : Fin size) (value : T)
deriving DecidableEq

structure Ring (size : Nat) (T : Type) where
  ring : Fin size → T
  head : Fin size
  tail : Fin size
  producer : Producer size T
  consumer : Consumer size T

variable {size : Nat} [NeZero size] {T : Type}

def next (current : Fin size) : Fin size := Fin.ofNat size (current + 1)

def producerStep (value : T) (r : Ring size T) : Ring size T × Option (Event T) :=
  match r.producer with
  | .idle => ({ r with producer := .loadedHead value r.head (next r.head) }, none)
  | .loadedHead value head nextHead =>
      if nextHead = r.tail then ({ r with producer := .idle }, some (.full value))
      else ({ r with producer := .writing value head nextHead }, none)
  | .writing value head nextHead =>
      ({ r with
        ring := Function.update r.ring head value
        producer := .storing value head nextHead }, none)
  | .storing value _ nextHead => ({ r with head := nextHead, producer := .idle }, some (.push value))

def consumerStep (r : Ring size T) : Ring size T × Option (Event T) :=
  match r.consumer with
  | .idle => ({ r with consumer := .loadedTail r.tail }, none)
  | .loadedTail tail =>
      if tail = r.head then ({ r with consumer := .idle }, some .empty)
      else ({ r with consumer := .reading tail }, none)
  | .reading tail => ({ r with consumer := .storing tail (r.ring tail) }, none)
  | .storing tail value => ({ r with tail := next tail, consumer := .idle }, some (.pop value))

inductive Step : Ring size T → Option (Event T) → Ring size T → Prop
  | producer (value : T) (r : Ring size T) : Step r (producerStep value r).2 (producerStep value r).1
  | consumer (r : Ring size T) : Step r (consumerStep r).2 (consumerStep r).1

/-- The slots are not initialized. -/
def Ring.Empty (r : Ring size T) : Prop :=
  r.head = 0 ∧ r.tail = 0 ∧ r.producer = .idle ∧ r.consumer = .idle

/-- One producer and one consumer, whose accesses are interleaved in any order. -/
def ringbuffer (size : Nat) [NeZero size] (T : Type) : Automaton (Ring size T) (Event T) :=
  ⟨Ring.Empty, Step⟩

def ProducerFits (r : Ring size T) (q : List T) : Producer size T → Prop
  | .idle => True
  | .loadedHead _ head nextHead => head = r.head ∧ nextHead = next head
  | .writing _ head nextHead => head = r.head ∧ nextHead = next head ∧ q.length + 1 < size
  | .storing value head nextHead =>
      head = r.head ∧ nextHead = next head ∧ q.length + 1 < size ∧ r.ring head = value

def ConsumerFits (r : Ring size T) (q : List T) : Consumer size T → Prop
  | .idle => True
  | .loadedTail tail => tail = r.tail
  | .reading tail => tail = r.tail ∧ q ≠ []
  | .storing tail value => tail = r.tail ∧ q.head? = some value

/-- The elements from tail to head are those of the queue, and the local copies
of the two sides are still of use. -/
structure Represents (r : Ring size T) (q : List T) : Prop where
  bound : q.length < size
  head : r.head = slot r.tail q.length
  stored : ∀ i (h : i < q.length), r.ring (slot r.tail i) = q[i]
  producer : ProducerFits r q r.producer
  consumer : ConsumerFits r q r.consumer

theorem next_slot (base : Fin size) (i : Nat) : next (slot base i) = slot base (i + 1) :=
  slot_slot base i 1

theorem slot_next (base : Fin size) (i : Nat) : slot (next base) i = slot base (i + 1) := by
  have h := slot_slot base 1 i
  rwa [Nat.add_comm] at h

namespace Represents

variable {r : Ring size T} {q : List T}

theorem next_head_eq_tail (h : Represents r q) : next r.head = r.tail ↔ q.length + 1 = size := by
  rw [h.head, next_slot, slot_eq_base _ _ h.bound]

theorem head_eq_tail (h : Represents r q) : r.tail = r.head ↔ q = [] := by
  constructor
  · intro he
    have hs := h.head
    rw [← he] at hs
    have hl := slot_injective r.tail q.length 0 h.bound (Nat.pos_of_neZero size)
      (hs.symm.trans (slot_zero r.tail).symm)
    exact List.length_eq_zero_iff.mp hl
  · intro hq
    rw [h.head, hq, List.length_nil, slot_zero]

theorem loadHead (h : Represents r q) (value : T) :
    Represents { r with producer := .loadedHead value r.head (next r.head) } q :=
  ⟨h.bound, h.head, h.stored, ⟨rfl, rfl⟩, h.consumer⟩

theorem refuse (h : Represents r q) : Represents { r with producer := .idle } q :=
  ⟨h.bound, h.head, h.stored, trivial, h.consumer⟩

theorem accept (h : Represents r q) (value : T) (hne : next r.head ≠ r.tail) :
    Represents { r with producer := .writing value r.head (next r.head) } q := by
  have hroom : q.length + 1 < size := by
    have hb := h.bound
    have hn := mt h.next_head_eq_tail.mpr hne
    omega
  exact ⟨h.bound, h.head, h.stored, ⟨rfl, rfl, hroom⟩, h.consumer⟩

theorem write (h : Represents r q) (value : T) (hroom : q.length + 1 < size) :
    Represents { r with
      ring := Function.update r.ring r.head value
      producer := .storing value r.head (next r.head) } q := by
  refine ⟨h.bound, h.head, ?_, ⟨rfl, rfl, hroom, Function.update_self r.head value r.ring⟩, h.consumer⟩
  intro i hi
  have hne : slot r.tail i ≠ r.head := by
    intro he
    rw [h.head] at he
    have hl := slot_injective r.tail i q.length (by have hb := h.bound; omega) h.bound he
    omega
  exact (Function.update_of_ne hne value r.ring).trans (h.stored i hi)

theorem storeHead (h : Represents r q) (value : T) (hroom : q.length + 1 < size)
    (hslot : r.ring r.head = value) :
    Represents { r with head := next r.head, producer := .idle } (q ++ [value]) := by
  have hlen : (q ++ [value]).length = q.length + 1 := List.length_append
  refine ⟨by omega, ?_, ?_, trivial, ?_⟩
  · rw [hlen, h.head, next_slot]
  · intro i hi
    by_cases hlt : i < q.length
    · rw [List.getElem_append_left hlt]
      exact h.stored i hlt
    · have he : i = q.length := by omega
      subst he
      rw [List.getElem_concat_length rfl, ← hslot, h.head]
  · have hc := h.consumer
    cases hpc : r.consumer with
    | idle => trivial
    | loadedTail tail => rwa [hpc] at hc
    | reading tail =>
        rw [hpc] at hc
        exact ⟨hc.1, List.append_ne_nil_of_left_ne_nil hc.2 _⟩
    | storing tail v =>
        rw [hpc] at hc
        refine ⟨hc.1, ?_⟩
        rw [List.head?_append, hc.2, Option.some_or]

theorem loadTail (h : Represents r q) : Represents { r with consumer := .loadedTail r.tail } q :=
  ⟨h.bound, h.head, h.stored, h.producer, rfl⟩

theorem giveUp (h : Represents r q) : Represents { r with consumer := .idle } q :=
  ⟨h.bound, h.head, h.stored, h.producer, trivial⟩

theorem find (h : Represents r q) (hne : r.tail ≠ r.head) :
    Represents { r with consumer := .reading r.tail } q :=
  ⟨h.bound, h.head, h.stored, h.producer, rfl, mt h.head_eq_tail.mpr hne⟩

theorem read (h : Represents r q) (hne : q ≠ []) :
    Represents { r with consumer := .storing r.tail (r.ring r.tail) } q := by
  refine ⟨h.bound, h.head, h.stored, h.producer, rfl, ?_⟩
  have hpos := List.length_pos_iff.mpr hne
  have hs := h.stored 0 hpos
  rw [slot_zero] at hs
  rw [hs, List.head?_eq_getElem?, List.getElem?_eq_getElem hpos]

theorem storeTail {value : T} (h : Represents r (value :: q)) :
    Represents { r with tail := next r.tail, consumer := .idle } q := by
  have hb := h.bound
  rw [List.length_cons] at hb
  refine ⟨by omega, ?_, ?_, ?_, trivial⟩
  · rw [h.head, List.length_cons, slot_next]
  · intro i hi
    rw [slot_next]
    exact h.stored (i + 1) (by rw [List.length_cons]; omega)
  · have hp := h.producer
    cases hpc : r.producer with
    | idle => trivial
    | loadedHead v head nextHead => rwa [hpc] at hp
    | writing v head nextHead =>
        rw [hpc] at hp
        exact ⟨hp.1, hp.2.1, by omega⟩
    | storing v head nextHead =>
        rw [hpc] at hp
        exact ⟨hp.1, hp.2.1, by omega, hp.2.2.2⟩

end Represents

def Producer.value : Producer size T → Option T
  | .idle => none
  | .loadedHead value _ _ => some value
  | .writing value _ _ => some value
  | .storing value _ _ => some value

theorem producerStep_cases (r : Ring size T) (q : List T) (value : T) (h : Represents r q) :
    ∃ r', (producerStep value r = (r', none) ∧ Represents r' q ∧
        r'.producer.value = some (r.producer.value.getD value)) ∨
      (producerStep value r = (r', some (.full (r.producer.value.getD value))) ∧
        q.length = size - 1 ∧ Represents r' q ∧ r'.producer = .idle) ∨
      (producerStep value r = (r', some (.push (r.producer.value.getD value))) ∧
        q.length < size - 1 ∧ Represents r' (q ++ [r.producer.value.getD value]) ∧
        r'.producer = .idle) := by
  have hp := h.producer
  cases hpc : r.producer with
  | idle =>
      rw [producerStep, hpc]
      exact ⟨_, .inl ⟨rfl, h.loadHead value, rfl⟩⟩
  | loadedHead v head nextHead =>
      rw [hpc] at hp
      obtain ⟨rfl, rfl⟩ := hp
      rw [producerStep, hpc]
      dsimp only
      by_cases he : next r.head = r.tail
      · have hl := h.next_head_eq_tail.mp he
        rw [if_pos he]
        exact ⟨_, .inr (.inl ⟨rfl, by omega, h.refuse, rfl⟩)⟩
      · rw [if_neg he]
        exact ⟨_, .inl ⟨rfl, h.accept v he, rfl⟩⟩
  | writing v head nextHead =>
      rw [hpc] at hp
      obtain ⟨rfl, rfl, hroom⟩ := hp
      rw [producerStep, hpc]
      exact ⟨_, .inl ⟨rfl, h.write v hroom, rfl⟩⟩
  | storing v head nextHead =>
      rw [hpc] at hp
      obtain ⟨rfl, rfl, hroom, hslot⟩ := hp
      rw [producerStep, hpc]
      exact ⟨_, .inr (.inr ⟨rfl, by omega, h.storeHead v hroom hslot, rfl⟩)⟩

theorem consumerStep_producer (r : Ring size T) : (consumerStep r).1.producer = r.producer := by
  rw [consumerStep]
  cases r.consumer with
  | loadedTail tail => dsimp only; split <;> rfl
  | idle | reading tail | storing tail v => rfl

theorem consumerStep_cases (r : Ring size T) (q : List T) (h : Represents r q) :
    ∃ r', (consumerStep r = (r', none) ∧ Represents r' q) ∨
      (consumerStep r = (r', some .empty) ∧ q = [] ∧ Represents r' q) ∨
      ∃ v q', q = v :: q' ∧ consumerStep r = (r', some (.pop v)) ∧ Represents r' q' := by
  have hc := h.consumer
  cases hpc : r.consumer with
  | idle =>
      rw [consumerStep, hpc]
      exact ⟨_, .inl ⟨rfl, h.loadTail⟩⟩
  | loadedTail tail =>
      rw [hpc] at hc
      obtain rfl : tail = r.tail := hc
      rw [consumerStep, hpc]
      dsimp only
      by_cases he : r.tail = r.head
      · have hq := h.head_eq_tail.mp he
        rw [if_pos he]
        exact ⟨_, .inr (.inl ⟨rfl, hq, h.giveUp⟩)⟩
      · rw [if_neg he]
        exact ⟨_, .inl ⟨rfl, h.find he⟩⟩
  | reading tail =>
      rw [hpc] at hc
      obtain ⟨rfl, hne⟩ := hc
      rw [consumerStep, hpc]
      exact ⟨_, .inl ⟨rfl, h.read hne⟩⟩
  | storing tail v =>
      rw [hpc] at hc
      obtain ⟨rfl, hv⟩ := hc
      obtain ⟨q', rfl⟩ := List.head?_eq_some_iff.mp hv
      rw [consumerStep, hpc]
      exact ⟨_, .inr (.inr ⟨v, q', rfl, rfl, h.storeTail⟩)⟩

theorem represents_empty (r : Ring size T) (h : r.Empty) : Represents r [] := by
  obtain ⟨hhead, htail, hp, hc⟩ := h
  refine ⟨Nat.pos_of_neZero size, ?_, ?_, ?_, ?_⟩
  · rw [hhead, htail, List.length_nil, slot_zero]
  · intro i hi
    exact absurd hi (Nat.not_lt_zero i)
  · rw [hp]
    trivial
  · rw [hc]
    trivial

theorem ringbuffer_refines :
    Simulation (ringbuffer size T) (boundedQueue (size - 1)) Represents where
  initial := fun r h => ⟨[], rfl, represents_empty r h⟩
  step := by
    intro r q o r' h hs
    cases hs with
    | producer value =>
        obtain ⟨r', ⟨hs, hr, -⟩ | ⟨hs, hfull, hr, -⟩ | ⟨hs, hroom, hr, -⟩⟩ :=
          producerStep_cases r q value h
        · rw [hs]
          exact ⟨q, .nil, hr⟩
        · rw [hs]
          exact ⟨q, Automaton.Path.single (Library.BoundedQueue.Step.full _ q hfull), hr⟩
        · rw [hs]
          exact ⟨_, Automaton.Path.single (Library.BoundedQueue.Step.push _ q hroom), hr⟩
    | consumer =>
        obtain ⟨r', ⟨hs, hr⟩ | ⟨hs, rfl, hr⟩ | ⟨v, q', rfl, hs, hr⟩⟩ := consumerStep_cases r q h
        · rw [hs]
          exact ⟨q, .nil, hr⟩
        · rw [hs]
          exact ⟨[], Automaton.Path.single Library.BoundedQueue.Step.empty, hr⟩
        · rw [hs]
          exact ⟨q', Automaton.Path.single (Library.BoundedQueue.Step.pop v q'), hr⟩

def Ring.contents (r : Ring size T) : List T :=
  (List.range ((r.head + (size - r.tail)) % size)).map fun i => r.ring (slot r.tail i)

theorem Represents.contents_eq {r : Ring size T} {q : List T} (h : Represents r q) : r.contents = q := by
  have hlen : (r.head + (size - r.tail)) % size = q.length := by
    have hhead : r.head.val = (r.tail + q.length) % size := congrArg Fin.val h.head
    have hsum : r.tail + q.length + (size - r.tail) = q.length + size := by
      have ht := r.tail.isLt
      omega
    rw [hhead, Nat.mod_add_mod, hsum, Nat.add_mod_right, Nat.mod_eq_of_lt h.bound]
  apply List.ext_getElem
  · rw [Ring.contents, List.length_map, List.length_range, hlen]
  · intro i hi hi'
    simp only [Ring.contents, List.getElem_map, List.getElem_range]
    exact h.stored i hi'

def Producer.writes : Producer size T → Option (Fin size)
  | .writing _ head _ => some head
  | _ => none

def Consumer.holds : Consumer size T → Option (Fin size)
  | .reading tail => some tail
  | .storing tail _ => some tail
  | _ => none

theorem Represents.holds_eq {r : Ring size T} {q : List T} (h : Represents r q) {i : Fin size}
    (hi : r.consumer.holds = some i) : i = slot r.tail 0 ∧ q ≠ [] := by
  have hc := h.consumer
  rw [slot_zero]
  cases hpc : r.consumer with
  | idle => simp [hpc, Consumer.holds] at hi
  | loadedTail tail => simp [hpc, Consumer.holds] at hi
  | reading tail =>
      rw [hpc] at hc hi
      exact ⟨(Option.some.inj hi).symm.trans hc.1, hc.2⟩
  | storing tail v =>
      rw [hpc] at hc hi
      refine ⟨(Option.some.inj hi).symm.trans hc.1, ?_⟩
      rintro rfl
      cases hc.2

theorem Represents.writes_ne_holds {r : Ring size T} {q : List T} (h : Represents r q) {i j : Fin size}
    (hi : r.producer.writes = some i) (hj : r.consumer.holds = some j) : i ≠ j := by
  obtain ⟨rfl, hne⟩ := h.holds_eq hj
  have hp := h.producer
  cases hpc : r.producer with
  | idle => simp [hpc, Producer.writes] at hi
  | loadedHead v head nextHead => simp [hpc, Producer.writes] at hi
  | storing v head nextHead => simp [hpc, Producer.writes] at hi
  | writing v head nextHead =>
      rw [hpc] at hp hi
      obtain ⟨hhead, -, hroom⟩ := hp
      rw [← Option.some.inj hi, hhead, h.head]
      intro he
      have hl := slot_injective r.tail q.length 0 (by omega) (by omega) he
      exact hne (List.length_eq_zero_iff.mp hl)

/-- Under every interleaving of the accesses the ring buffer is a first-in
first-out queue of size - 1 elements, and no slot is read while it is written. -/
theorem ringbuffer_fifo (size : Nat) [NeZero size] (T : Type) (es : List (Event T)) (r : Ring size T)
    (h : (ringbuffer size T).Run es r) :
    (∃ q, (boundedQueue (size - 1)).Run es q) ∧
      pops es <+: pushes es ∧
      (∀ pre v post, es = pre ++ .full v :: post →
        (pushes pre).length = (pops pre).length + (size - 1)) ∧
      (∀ pre post, es = pre ++ .empty :: post → (pushes pre).length = (pops pre).length) ∧
      (pushes es).length ≤ (pops es).length + (size - 1) ∧
      ∀ i j, r.producer.writes = some i → r.consumer.holds = some j → i ≠ j := by
  obtain ⟨q, hq, hr⟩ := ringbuffer_refines.run h
  refine ⟨⟨q, hq⟩, pops_prefix hq, ?_, ?_, stored_le hq, ?_⟩
  · rintro pre v post rfl
    exact stored_full hq
  · rintro pre post rfl
    exact stored_empty hq
  · intro i j hi hj
    exact hr.writes_ne_holds hi hj

def runSchedule : List (Option T) → Ring size T → List (Event T) × Ring size T
  | [], r => ([], r)
  | m :: ms, r =>
      let (r, o) := match m with
        | some value => producerStep value r
        | none => consumerStep r
      let (es, r) := runSchedule ms r
      (o.toList ++ es, r)

theorem runSchedule_path (ms : List (Option T)) (r : Ring size T) :
    (ringbuffer size T).Path r (runSchedule ms r).1 (runSchedule ms r).2 := by
  induction ms generalizing r with
  | nil => exact .nil
  | cons m ms ih =>
      cases m with
      | none =>
          exact Automaton.Path.trans
            (Automaton.Path.single (M := ringbuffer size T) (Step.consumer r)) (ih _)
      | some value =>
          exact Automaton.Path.trans
            (Automaton.Path.single (M := ringbuffer size T) (Step.producer value r)) (ih _)

def Ring.start (ring : Fin size → T) : Ring size T := ⟨ring, 0, 0, .idle, .idle⟩

def sampleSchedule : List (Option Nat) :=
  [some 7, none, some 7, some 7, some 7, none, some 8, none, some 8, none]

theorem ringbuffer_fifo_sample :
    (runSchedule sampleSchedule (Ring.start fun _ : Fin 2 => 0)).1 = [.push 7, .full 8, .pop 7] ∧
      ∃ q, (boundedQueue 1).Run (runSchedule sampleSchedule (Ring.start fun _ : Fin 2 => 0)).1 q :=
  ⟨rfl, (ringbuffer_fifo 2 Nat _ _ ⟨Ring.start fun _ => 0, ⟨rfl, rfl, rfl, rfl⟩,
    runSchedule_path sampleSchedule _⟩).1⟩

end IntPlatform.Exporter.RingBuffer
