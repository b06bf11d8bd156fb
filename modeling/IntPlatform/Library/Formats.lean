import Mathlib.Logic.Equiv.Prod
import Mathlib.Tactic.Common

namespace IntPlatform.Library.Formats

abbrev Byte := BitVec 8

/-- A fixed-size byte format. Both round trips are fields, so every format
built from the combinators below carries them. -/
structure Codec (α : Type) where
  size : Nat
  encode : α → List Byte
  decode : List Byte → α
  encode_length : ∀ a, (encode a).length = size
  decode_encode : ∀ a, decode (encode a) = a
  encode_decode : ∀ bs, bs.length = size → encode (decode bs) = bs

attribute [simp] Codec.encode_length Codec.decode_encode

variable {α β : Type}

def byte : Codec Byte where
  size := 1
  encode b := [b]
  decode bs := bs.headD 0
  encode_length _ := rfl
  decode_encode _ := rfl
  encode_decode bs h := by
    obtain ⟨b, rfl⟩ := List.length_eq_one_iff.mp h
    rfl

def pair (c : Codec α) (d : Codec β) : Codec (α × β) where
  size := c.size + d.size
  encode p := c.encode p.1 ++ d.encode p.2
  decode bs := (c.decode (bs.take c.size), d.decode (bs.drop c.size))
  encode_length p := by simp
  decode_encode p := by
    have hc := c.encode_length p.1
    rw [List.take_left' hc, List.drop_left' hc, c.decode_encode, d.decode_encode]
  encode_decode bs h := by
    have ht : (bs.take c.size).length = c.size := by simp [h]
    have hd : (bs.drop c.size).length = d.size := by simp [h]
    rw [c.encode_decode _ ht, d.encode_decode _ hd, List.take_append_drop]

def along (c : Codec α) (e : α ≃ β) : Codec β where
  size := c.size
  encode b := c.encode (e.symm b)
  decode bs := e (c.decode bs)
  encode_length b := c.encode_length _
  decode_encode b := by simp
  encode_decode bs h := by simp [c.encode_decode bs h]

/-- Bit fields in transmission order: the high part is sent first. -/
def joinBits (w v : Nat) : BitVec w × BitVec v ≃ BitVec (w + v) where
  toFun p := p.1 ++ p.2
  invFun z := (z.extractLsb' v w, z.extractLsb' 0 v)
  left_inv p := by simp only [BitVec.extractLsb'_append_eq_left, BitVec.extractLsb'_append_eq_right]
  right_inv z := BitVec.extractLsb'_append_extractLsb'

def glue {w v : Nat} (c : Codec (BitVec w)) (d : Codec (BitVec v)) : Codec (BitVec (w + v)) :=
  along (pair c d) (joinBits w v)

/-- A bit vector cut into two fields that share its bytes. -/
def cut {w v : Nat} (c : Codec (BitVec (w + v))) : Codec (BitVec w × BitVec v) :=
  along c (joinBits w v).symm

def cut3 {u v w : Nat} (c : Codec (BitVec (u + (v + w)))) : Codec (BitVec u × BitVec v × BitVec w) :=
  along (cut c) (Equiv.prodCongr (Equiv.refl _) (joinBits v w).symm)

def cut4 {t u v w : Nat} (c : Codec (BitVec (t + (u + (v + w))))) :
    Codec (BitVec t × BitVec u × BitVec v × BitVec w) :=
  along (cut3 c) (Equiv.prodCongr (Equiv.refl _) (Equiv.prodCongr (Equiv.refl _) (joinBits v w).symm))

def be16 : Codec (BitVec 16) := glue byte byte
def be24 : Codec (BitVec 24) := glue be16 byte
def be32 : Codec (BitVec 32) := glue be16 be16
def be48 : Codec (BitVec 48) := glue be32 be16
def be64 : Codec (BitVec 64) := glue be32 be32

def reversed (c : Codec α) : Codec α where
  size := c.size
  encode a := (c.encode a).reverse
  decode bs := c.decode bs.reverse
  encode_length a := by simp
  decode_encode a := by simp
  encode_decode bs h := by rw [c.encode_decode _ (by simpa using h), List.reverse_reverse]

def le16 : Codec (BitVec 16) := reversed be16
def le32 : Codec (BitVec 32) := reversed be32
def le64 : Codec (BitVec 64) := reversed be64

theorem extract_extract {w : Nat} (x : BitVec w) (i m j n : Nat) (h : j + n ≤ m) :
    (x.extractLsb' i m).extractLsb' j n = x.extractLsb' (i + j) n := by
  ext k hk
  simp only [BitVec.getElem_extractLsb', BitVec.getLsbD_extractLsb', show j + k < m by omega,
    decide_true, Bool.true_and, Nat.add_assoc]

theorem Codec.encode_inj (c : Codec α) (a b : α) : c.encode a = c.encode b ↔ a = b := by
  constructor
  · intro h
    rw [← c.decode_encode a, h, c.decode_encode]
  · rintro rfl
    rfl

def Codec.swap (c : Codec α) (a : α) : α := (reversed c).decode (c.encode a)

theorem encode_swap (c : Codec α) (a : α) : (reversed c).encode (c.swap a) = c.encode a :=
  (reversed c).encode_decode _ (c.encode_length a)

theorem swap_swap (c : Codec α) (a : α) : c.swap (c.swap a) = a := by
  have h : c.encode (c.swap a) = (c.encode a).reverse := by
    rw [← encode_swap c a]
    exact (List.reverse_reverse _).symm
  rw [Codec.swap, h]
  change c.decode (c.encode a).reverse.reverse = a
  rw [List.reverse_reverse, c.decode_encode]

theorem glue_encode {w v : Nat} (c : Codec (BitVec w)) (d : Codec (BitVec v)) (x : BitVec w)
    (y : BitVec v) : (glue c d).encode (x ++ y) = c.encode x ++ d.encode y := by
  change (pair c d).encode ((joinBits w v).symm (joinBits w v (x, y))) = _
  rw [Equiv.symm_apply_apply]
  rfl

def Codec.read (c : Codec α) (bs : List Byte) : Option (α × List Byte) :=
  if bs.length < c.size then none else some (c.decode (bs.take c.size), bs.drop c.size)

@[simp] theorem read_encode (c : Codec α) (a : α) (rest : List Byte) :
    c.read (c.encode a ++ rest) = some (a, rest) := by
  have hl := c.encode_length a
  simp [Codec.read, List.take_left' hl, List.drop_left' hl]

theorem read_eq_some (c : Codec α) (bs rest : List Byte) (a : α) :
    c.read bs = some (a, rest) ↔ bs = c.encode a ++ rest := by
  constructor
  · intro h
    simp only [Codec.read] at h
    split at h
    · cases h
    · next hl =>
      obtain ⟨rfl, rfl⟩ := Prod.mk.inj (Option.some.inj h)
      rw [c.encode_decode _ (by simp; omega), List.take_append_drop]
  · rintro rfl
    exact read_encode c a rest

theorem read_bind (c : Codec α) (a : α) (rest : List Byte) (f : α × List Byte → Option β) :
    (c.read (c.encode a ++ rest) >>= f) = f (a, rest) := by
  rw [read_encode]
  rfl

theorem read_bind_eq_some {c : Codec α} {bs : List Byte} {b : β} {f : α × List Byte → Option β}
    (h : (c.read bs >>= f) = some b) : ∃ a rest, bs = c.encode a ++ rest ∧ f (a, rest) = some b := by
  obtain ⟨⟨a, rest⟩, hr, hf⟩ := Option.bind_eq_some_iff.mp h
  exact ⟨a, rest, (read_eq_some c bs rest a).mp hr, hf⟩

def patch (offset : Nat) (new bs : List Byte) : List Byte :=
  bs.take offset ++ (new ++ bs.drop (offset + new.length))

def insertAt (offset : Nat) (new bs : List Byte) : List Byte :=
  bs.take offset ++ (new ++ bs.drop offset)

end IntPlatform.Library.Formats
