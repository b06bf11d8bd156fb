import IntPlatform.Library.Formats
import Mathlib.Data.ZMod.Basic
import Mathlib.Tactic.Ring
import Mathlib.Tactic.NormNum

namespace IntPlatform.Library.OnesComplement

open Formats

abbrev Residue := ZMod 65535

/-- A bit string read as a number modulo 2^16 - 1, in which the end-around
carry is invisible. -/
def residue {w : Nat} (v : BitVec w) : Residue := (v.toNat : Residue)

def add (a b : BitVec 16) : BitVec 16 :=
  if a.toNat + b.toNat < 65536 then a + b else a + b + 1#16

def sum (ws : List (BitVec 16)) : BitVec 16 := ws.foldr add 0#16

/-- A covered block verifies when its words add up to all ones. -/
def Verifies (ws : List (BitVec 16)) : Prop := sum ws = 0xffff#16

instance (ws : List (BitVec 16)) : Decidable (Verifies ws) := inferInstanceAs (Decidable (_ = _))

/-- Big-endian 16-bit words; an odd last byte is padded on the right. -/
def words : List Byte → List (BitVec 16)
  | a :: b :: rest => (a ++ b : BitVec 16) :: words rest
  | [a] => [(a ++ 0#8 : BitVec 16)]
  | [] => []

def total (bs : List Byte) : Residue := ((words bs).map residue).sum

theorem modulus_eq_zero : (65535 : Residue) = 0 := ZMod.natCast_self 65535

theorem two_pow_sixteen : (2 : Residue) ^ 16 = 1 := by
  have h : (2 : Residue) ^ 16 = 65535 + 1 := by norm_num
  rw [h, modulus_eq_zero, zero_add]

theorem residue_add (a b : BitVec 16) : residue (add a b) = residue a + residue b := by
  have ha := a.isLt
  have hb := b.isLt
  simp only [residue, add]
  split
  · next h => rw [BitVec.toNat_add_of_lt h, Nat.cast_add]
  · next h =>
    have hn : (a + b + 1#16).toNat + 65535 = a.toNat + b.toNat := by
      simp only [BitVec.toNat_add, BitVec.toNat_ofNat]
      omega
    have hc := congrArg (Nat.cast (R := Residue)) hn
    simpa [modulus_eq_zero] using hc

theorem residue_not (a : BitVec 16) : residue (~~~a) = -residue a := by
  have ha := a.isLt
  have hn : (~~~a).toNat + a.toNat = 65535 := by rw [BitVec.toNat_not]; omega
  have hc := congrArg (Nat.cast (R := Residue)) hn
  rw [Nat.cast_add, ZMod.natCast_self] at hc
  exact eq_neg_of_add_eq_zero_left hc

@[simp] theorem residue_zero {w : Nat} : residue 0#w = 0 := by simp [residue]

theorem residue_eq_zero (a : BitVec 16) : residue a = 0 ↔ a = 0#16 ∨ a = 0xffff#16 := by
  have ha := a.isLt
  rw [residue, ZMod.natCast_eq_zero_iff]
  constructor
  · rintro ⟨k, hk⟩
    obtain rfl | rfl : k = 0 ∨ k = 1 := by omega
    · exact .inl (BitVec.eq_of_toNat_eq (by simpa using hk))
    · exact .inr (BitVec.eq_of_toNat_eq (by simpa using hk))
  · rintro (rfl | rfl) <;> simp

/-- Words with the same residue are equal unless they are the two zeros. -/
theorem eq_of_residue_eq (a b : BitVec 16) (h : residue a = residue b)
    (hones : a = 0xffff#16 ↔ b = 0xffff#16) : a = b := by
  have ha := a.isLt
  have hb := b.isLt
  rw [residue, residue, ZMod.natCast_eq_natCast_iff'] at h
  rw [← BitVec.toNat_inj, ← BitVec.toNat_inj] at hones
  apply BitVec.eq_of_toNat_eq
  simp only [BitVec.toNat_ofNat] at hones
  omega

theorem residue_byte_inj (a b : Byte) : residue a = residue b ↔ a = b := by
  have ha := a.isLt
  have hb := b.isLt
  rw [residue, residue, ZMod.natCast_eq_natCast_iff', Nat.mod_eq_of_lt (by omega),
    Nat.mod_eq_of_lt (by omega), BitVec.toNat_inj]

theorem add_eq_zero (a b : BitVec 16) : add a b = 0#16 ↔ a = 0#16 ∧ b = 0#16 := by
  have ha := a.isLt
  have hb := b.isLt
  constructor
  · intro h
    have hn : a.toNat = 0 ∧ b.toNat = 0 := by
      have hs := congrArg BitVec.toNat h
      simp only [add] at hs
      split at hs <;> simp only [BitVec.toNat_add, BitVec.toNat_ofNat] at hs <;> omega
    exact ⟨BitVec.eq_of_toNat_eq hn.1, BitVec.eq_of_toNat_eq hn.2⟩
  · rintro ⟨rfl, rfl⟩
    rfl

theorem zero_add_word (a : BitVec 16) : add 0#16 a = a := by
  have ha := a.isLt
  rw [add, if_pos (by simpa using ha), BitVec.zero_add]

/-- All ones is a second zero for every other value. -/
theorem add_eq_left (a b : BitVec 16) (h : a ≠ 0#16) : add a b = a ↔ b = 0#16 ∨ b = 0xffff#16 := by
  constructor
  · intro he
    rw [← residue_eq_zero]
    have hr := residue_add a b
    rw [he] at hr
    exact left_eq_add.mp hr
  · rintro (rfl | rfl)
    · rw [add, if_pos (by simpa using a.isLt), BitVec.add_zero]
    · have hpos : 0 < a.toNat := by bv_omega
      rw [add, if_neg (by simp only [BitVec.toNat_ofNat]; omega)]
      bv_omega

theorem residue_sum (ws : List (BitVec 16)) : residue (sum ws) = (ws.map residue).sum := by
  induction ws with
  | nil => simp [sum]
  | cons w ws ih =>
      rw [List.map_cons, List.sum_cons, ← ih]
      exact residue_add w (sum ws)

theorem sum_eq_zero (ws : List (BitVec 16)) : sum ws = 0#16 ↔ ∀ w ∈ ws, w = 0#16 := by
  induction ws with
  | nil => simp [sum]
  | cons w ws ih =>
      rw [List.forall_mem_cons, ← ih]
      exact add_eq_zero w (sum ws)

/-- Verification is a congruence: the residues cancel and some word is set. -/
theorem verifies_iff (ws : List (BitVec 16)) :
    Verifies ws ↔ (ws.map residue).sum = 0 ∧ ∃ w ∈ ws, w ≠ 0#16 := by
  have hz : (∃ w ∈ ws, w ≠ 0#16) ↔ sum ws ≠ 0#16 := by
    rw [ne_eq, sum_eq_zero]
    push Not
    rfl
  rw [Verifies, ← residue_sum, residue_eq_zero, hz]
  constructor
  · intro h
    rw [h]
    exact ⟨.inr rfl, by decide⟩
  · rintro ⟨h | h, hn⟩
    · exact absurd h hn
    · exact h

theorem verifies_iff_of_mem {ws : List (BitVec 16)} {a b : Byte} (hm : (a ++ b : BitVec 16) ∈ ws)
    (hb : b ≠ 0) : Verifies ws ↔ (ws.map residue).sum = 0 := by
  rw [verifies_iff]
  refine and_iff_left ⟨(a ++ b : BitVec 16), hm, ?_⟩
  intro hz
  apply hb
  have hr := congrArg (fun z : BitVec (8 + 8) => z.extractLsb' 0 8) hz
  rw [BitVec.extractLsb'_append_eq_right] at hr
  exact hr

theorem words_append (a b : List Byte) (h : Even a.length) : words (a ++ b) = words a ++ words b := by
  induction a using words.induct with
  | case1 x y rest ih =>
      have he : Even rest.length := by
        simpa [Nat.even_add_one] using h
      simp [words, ih he]
  | case2 x => simp at h
  | case3 => rfl

theorem total_append (a b : List Byte) (h : Even a.length) : total (a ++ b) = total a + total b := by
  simp [total, words_append a b h]

theorem residue_append {w v : Nat} (a : BitVec w) (b : BitVec v) :
    residue (a ++ b) = residue a * 2 ^ v + residue b := by
  have hn : (a ++ b).toNat = a.toNat * 2 ^ v + b.toNat := by
    rw [BitVec.toNat_append, Nat.shiftLeft_eq, ← Nat.shiftLeft_eq, Nat.shiftLeft_add_eq_or_of_lt b.isLt]
  rw [residue, hn]
  simp [residue]

/-- A format whose bytes add up to the residue of the value itself. -/
def Additive {w : Nat} (c : Codec (BitVec w)) : Prop :=
  Even c.size ∧ ∀ v, total (c.encode v) = residue v

theorem words_be16_append (v : BitVec 16) (rest : List Byte) :
    words (be16.encode v ++ rest) = v :: words rest :=
  congrArg (· :: words rest) BitVec.extractLsb'_append_extractLsb'

theorem total_be16_append (v : BitVec 16) (rest : List Byte) :
    total (be16.encode v ++ rest) = residue v + total rest := by
  simp [total, words_be16_append]

theorem residue_bytes (a b : Byte) : residue (a ++ b) = residue a * 256 + residue b := by
  rw [residue_append]
  norm_num

theorem total_bytes_append (a b : Byte) (rest : List Byte) :
    total (byte.encode a ++ (byte.encode b ++ rest)) = residue a * 256 + residue b + total rest := by
  have hw : words (byte.encode a ++ (byte.encode b ++ rest)) = (a ++ b : BitVec 16) :: words rest := rfl
  rw [total, hw, List.map_cons, List.sum_cons, residue_bytes]
  rfl

theorem Additive.total_append {w : Nat} {c : Codec (BitVec w)} (h : Additive c) (v : BitVec w)
    (rest : List Byte) : total (c.encode v ++ rest) = residue v + total rest := by
  rw [OnesComplement.total_append _ _ (by simpa using h.1), h.2]

theorem additive_be16 : Additive be16 := by
  refine ⟨by decide, fun v => ?_⟩
  have h := total_be16_append v []
  simpa [total, words] using h

theorem additive_glue {w v : Nat} {c : Codec (BitVec w)} {d : Codec (BitVec v)}
    (hc : Additive c) (hd : Additive d) (hv : (2 : Residue) ^ v = 1) : Additive (glue c d) := by
  refine ⟨hc.1.add hd.1, fun z => ?_⟩
  have hz := BitVec.extractLsb'_append_extractLsb' (x := z)
  conv_rhs => rw [← hz]
  rw [residue_append, hv, mul_one, ← hc.2, ← hd.2, ← total_append _ _ (by simpa using hc.1)]
  rfl

theorem additive_be32 : Additive be32 := additive_glue additive_be16 additive_be16 two_pow_sixteen

theorem additive_be64 : Additive be64 := by
  refine additive_glue additive_be32 additive_be32 ?_
  rw [show (32 : Nat) = 16 * 2 from rfl, pow_mul, two_pow_sixteen, one_pow]

end IntPlatform.Library.OnesComplement
