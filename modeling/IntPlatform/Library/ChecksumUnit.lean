import IntPlatform.Library.OnesComplement

namespace IntPlatform.Library.ChecksumUnit

open Formats OnesComplement

/-- The checksum unit of a packet program: a running one's-complement sum. -/
structure InternetChecksum where
  sum : BitVec 16
deriving DecidableEq, Repr

def field {α : Type} (c : Codec α) (a : α) : List (BitVec 16) := words (c.encode a)

namespace InternetChecksum

def clear : InternetChecksum := ⟨0⟩

def add (ck : InternetChecksum) (data : List (BitVec 16)) : InternetChecksum :=
  ⟨data.foldl OnesComplement.add ck.sum⟩

def subtract (ck : InternetChecksum) (data : List (BitVec 16)) : InternetChecksum :=
  ck.add (data.map (~~~·))

def get (ck : InternetChecksum) : BitVec 16 := ~~~ck.sum

variable (ck : InternetChecksum)

theorem add_singleton (w : BitVec 16) : ck.add [w] = ⟨OnesComplement.add ck.sum w⟩ := by
  rw [add, List.foldl_cons, List.foldl_nil]

theorem subtract_singleton (w : BitVec 16) :
    ck.subtract [w] = ⟨OnesComplement.add ck.sum (~~~w)⟩ := by
  rw [subtract, List.map_singleton, add_singleton]

@[simp] theorem residue_clear : residue clear.sum = 0 := residue_zero

@[simp] theorem residue_add (data : List (BitVec 16)) :
    residue (ck.add data).sum = residue ck.sum + (data.map residue).sum := by
  induction data generalizing ck with
  | nil => exact (add_zero _).symm
  | cons w data ih =>
      refine (ih ⟨OnesComplement.add ck.sum w⟩).trans ?_
      rw [OnesComplement.residue_add, List.map_cons, List.sum_cons, add_assoc]

@[simp] theorem residue_subtract (data : List (BitVec 16)) :
    residue (ck.subtract data).sum = residue ck.sum - (data.map residue).sum := by
  have hm : (data.map (~~~·)).map residue = (data.map residue).map (fun x => -x) := by
    rw [List.map_map, List.map_map]
    congr 1
    funext w
    exact residue_not w
  rw [subtract, residue_add, hm, sub_eq_add_neg, List.sum_neg]

@[simp] theorem residue_get : residue ck.get = -residue ck.sum := residue_not ck.sum

end InternetChecksum

theorem residue_field {w : Nat} {c : Codec (BitVec w)} (h : Additive c) (v : BitVec w) :
    ((field c v).map residue).sum = residue v := h.2 v

theorem field_be16 (v : BitVec 16) : field be16 v = [v] := by
  rw [field, ← List.append_nil (be16.encode v), words_be16_append]
  rfl

theorem residue_field_byte (v : Byte) : ((field byte v).map residue).sum = residue v * 256 := by
  have hz := residue_append v 0#8
  rw [residue_zero, add_zero] at hz
  change (([v ++ 0#8] : List (BitVec 16)).map residue).sum = _
  rw [List.map_singleton, List.sum_singleton, hz]
  norm_num

end IntPlatform.Library.ChecksumUnit
