import Mathlib.Data.List.TakeWhile

namespace IntPlatform.Library.TextBuffer

/-- The character that ends a C string. -/
def nul : Char := Char.ofNat 0

def NulFree (text : List Char) : Prop := nul ∉ text

theorem nulFree_append (a b : List Char) : NulFree (a ++ b) ↔ NulFree a ∧ NulFree b := by
  rw [NulFree, List.mem_append, not_or]
  rfl

theorem nulFree_of_notMem (text : List Char) (h : nul ∉ text) : NulFree text := h

/-- A char array of n bytes. -/
structure CharArray (n : Nat) where
  chars : List Char
  length_chars : chars.length = n

namespace CharArray

variable {n : Nat}

def zeros (n : Nat) : CharArray n := ⟨List.replicate n nul, List.length_replicate⟩

def string (a : CharArray n) : List Char := a.chars.takeWhile (· ≠ nul)

theorem length_overwrite (a : CharArray n) (text : List Char) (h : text.length < n) :
    (text ++ nul :: a.chars.drop (text.length + 1)).length = n := by
  rw [List.length_append, List.length_cons, List.length_drop, a.length_chars]
  omega

/-- Write a text and its NUL from the start of the array. There is no result
when they run over its end. -/
def sprintf (a : CharArray n) (text : List Char) : Option (CharArray n) :=
  if h : text.length < n then some ⟨_, a.length_overwrite text h⟩ else none

/-- A text that fits and has no NUL is read back as it was written. -/
theorem sprintf_string (a : CharArray n) (text : List Char) (hfit : text.length < n) (hnul : NulFree text) :
    ∃ b, a.sprintf text = some b ∧ b.string = text := by
  refine ⟨_, dif_pos hfit, ?_⟩
  have hpos : ∀ c ∈ text, decide (c ≠ nul) = true := by
    intro c hc
    exact decide_eq_true fun h => hnul (h ▸ hc)
  rw [string, List.takeWhile_append_of_pos hpos, List.takeWhile_cons_of_neg (by simp), List.append_nil]

end CharArray

end IntPlatform.Library.TextBuffer
